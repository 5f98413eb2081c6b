/-!
# String literals in double quotes

Between the quotes stand single characters other than a quote and a backslash, and pairs of a backslash
and any character but a line feed. `scanLiteral` finds the end of a literal. The two dialects read the
pairs differently: `unescape` drops the backslash of every pair it has no special meaning for,
`unescapeKeeping` keeps it for a later reader.
-/

namespace Stencil

/-- Splits a text that stands after an opening quote into the body of the literal and what follows the
closing quote. Where no closing quote ends a well-formed body, the body is cut after its last complete
item. -/
def scanLiteral : List Char → List Char × Option (List Char)
  | [] => ([], none)
  | '"' :: rest => ([], some rest)
  | ['\\'] => ([], none)
  | '\\' :: c :: rest =>
    if c == '\n' then ([], none)
    else
      let (body, after) := scanLiteral rest
      ('\\' :: c :: body, after)
  | c :: rest =>
    let (body, after) := scanLiteral rest
    (c :: body, after)

/-- The body and the rest of a closed literal make up the text again, with the quote between them. -/
theorem eq_append_of_scanLiteral {cs body rest : List Char} (h : scanLiteral cs = (body, some rest)) :
    cs = body ++ '"' :: rest := by
  fun_induction scanLiteral cs generalizing body with
  | case1 => simp at h
  | case2 r => simp_all
  | case3 => simp at h
  | case4 => simp at h
  | case5 c r hc b a hr ih =>
    simp only [Prod.mk.injEq] at h
    obtain ⟨h₁, h₂⟩ := h
    subst h₁; subst h₂
    simp [ih hr]
  | case6 c r h₁ h₂ h₃ b a hr ih =>
    simp only [Prod.mk.injEq] at h
    obtain ⟨h₁, h₂⟩ := h
    subst h₁; subst h₂
    simp [ih hr]

/-- The character that a letter after a backslash stands for: line feed, tab or carriage return. -/
def controlEscape? : Char → Option Char
  | 'n' => some '\n'
  | 't' => some '\t'
  | 'r' => some '\r'
  | _ => none

/-- Resolves the pairs of a literal's body; a pair without special meaning stands for its second
character. -/
def unescape : List Char → List Char
  | [] => []
  | ['\\'] => ['\\']
  | '\\' :: c :: rest => (controlEscape? c).getD c :: unescape rest
  | c :: rest => c :: unescape rest

/-- Resolves `\"`, `\\` and the control escapes of a literal's body and keeps every other pair (`unescape_body`). -/
def unescapeKeeping : List Char → List Char
  | [] => []
  | ['\\'] => ['\\']
  | '\\' :: c :: rest =>
    if c == '"' || c == '\\' then c :: unescapeKeeping rest
    else
      match controlEscape? c with
      | some d => d :: unescapeKeeping rest
      | none => '\\' :: c :: unescapeKeeping rest
  | c :: rest => c :: unescapeKeeping rest

end Stencil
