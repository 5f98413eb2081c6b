import Stencil.SyntaxError
import Stencil.Text.Blank
import Stencil.Text.StringLiteral
import Stencil.Text.Word

/-!
# Scanning group files

`scan` cuts a group file into tokens. At every place the longest token or comment is taken; blanks and
comments are dropped. `next` looks at one place and says what begins there; it always takes at least one
character (`length_rest_next_le`), so the scanner ends.
-/

namespace Stencil.GroupFile

/-- What a text begins with. -/
inductive Piece where
  /-- Blanks or a comment of so many bytes, and what follows. -/
  | skipped (bytes : Nat) (rest : List Char)
  | token (token : Token) (bytes : Nat) (rest : List Char)
  /-- So many bytes that belong to no token. -/
  | fault (bytes : Nat) (fault : SyntaxFault)
deriving DecidableEq, Repr

/-- Splits a text at the first place where `a` and `b` stand side by side. -/
def splitAtPair? (a b : Char) : List Char → Option (List Char × List Char)
  | [] => none
  | c :: cs =>
    match c == a, cs with
    | true, d :: rest =>
      if d == b then some ([], rest)
      else (splitAtPair? a b cs).map fun (before, after) => (c :: before, after)
    | _, _ => (splitAtPair? a b cs).map fun (before, after) => (c :: before, after)

/-- Splits a text that stands after the opening of a comment into its body and what follows the closing
star and slash. A star always goes together with the character after it. Where the comment does not end,
the body is cut after its last complete item. -/
def scanComment : List Char → List Char × Option (List Char)
  | [] => ([], none)
  | ['*'] => ([], none)
  | '*' :: '/' :: rest => ([], some rest)
  | '*' :: c :: rest =>
    let (body, after) := scanComment rest
    ('*' :: c :: body, after)
  | c :: rest =>
    let (body, after) := scanComment rest
    (c :: body, after)

/-- The text without a line break at its beginning. -/
def dropBreak : List Char → List Char
  | '\r' :: '\n' :: rest => rest
  | '\n' :: rest => rest
  | cs => cs

/-- The text without a line break at its end. -/
def dropLastBreak (cs : List Char) : List Char :=
  match cs.reverse with
  | '\n' :: '\r' :: rest => rest.reverse
  | '\n' :: rest => rest.reverse
  | _ => cs

/-- The lines of a text one after the other, without the breaks between them and without the blanks that every line
but the first begins with (`big_string_trimmed`). `fresh` tells that such blanks are being dropped. -/
def joinLines (fresh : Bool) : List Char → List Char
  | [] => []
  | '\r' :: '\n' :: rest => joinLines true rest
  | '\n' :: rest => joinLines true rest
  | c :: rest => if fresh && isBlank c then joinLines true rest else c :: joinLines false rest

/-- Whether blanks of a group file may have the character. -/
def isSpacing (c : Char) : Bool :=
  c == ' ' || c == '\t' || c == '\n' || c == '\r'

def Token.ofWord (name : List Char) : Token :=
  if name == "delimiters".toList then .delimiters else .word (String.ofList name)

def strayCharacter (c : Char) : Piece :=
  .fault c.utf8Size (.unexpectedInput (String.ofList [c]))

/-- What the text with the first character `c` begins with. -/
def next (c : Char) (cs : List Char) : Piece :=
  match c, cs with
  | ':', ':' :: '=' :: rest => .token .defines 3 rest
  | '(', rest => .token .parenOpen 1 rest
  | ')', rest => .token .parenClose 1 rest
  | ',', rest => .token .comma 1 rest
  | '.', rest => .token .dot 1 rest
  | '@', rest => .token .atSign 1 rest
  | '=', rest => .token .equals 1 rest
  | '"', rest =>
    match scanLiteral rest with
    | (body, some after) =>
      .token (.str (String.ofList (unescapeKeeping body))) (byteLength body + 2) after
    | (body, none) => .fault (byteLength body + 1) .unterminatedString
  | '<', '<' :: rest =>
    match splitAtPair? '>' '>' rest with
    | some (body, after) =>
      .token (.block (String.ofList (dropLastBreak (dropBreak body)))) (byteLength body + 4) after
    | none => .fault 2 .unterminatedBlock
  | '<', '%' :: rest =>
    match splitAtPair? '%' '>' rest with
    | some (body, after) =>
      .token (.joinedBlock (String.ofList (joinLines false body))) (byteLength body + 4) after
    | none => .fault 2 .unterminatedJoinedBlock
  | '/', '/' :: rest =>
    .skipped (byteLength (rest.takeWhile (· != '\n')) + 2) (rest.dropWhile (· != '\n'))
  | '/', '*' :: rest =>
    match scanComment rest with
    | (body, some after) => .skipped (byteLength body + 4) after
    | (body, none) =>
      .fault (byteLength body + 2) (.unexpectedInput (String.ofList ('/' :: '*' :: body)))
  | _, _ =>
    if isSpacing c then .skipped 1 cs
    else if isWordStart c then
      let more := cs.takeWhile isWordPart
      .token (Token.ofWord (c :: more)) (byteLength (c :: more)) (cs.dropWhile isWordPart)
    else strayCharacter c

def Piece.rest : Piece → List Char
  | skipped _ rest => rest
  | token _ _ rest => rest
  | fault _ _ => []

/-! ## Every piece shortens the input -/

theorem length_le_of_splitAtPair? {a b : Char} {cs before after : List Char}
    (h : splitAtPair? a b cs = some (before, after)) : after.length ≤ cs.length := by
  induction cs generalizing before with
  | nil => simp [splitAtPair?] at h
  | cons c cs ih =>
    have tail : (splitAtPair? a b cs).map (fun (before, after) => (c :: before, after)) =
        some (before, after) → after.length ≤ (c :: cs).length := by
      intro h'
      simp only [Option.map_eq_some_iff, Prod.exists, Prod.mk.injEq] at h'
      obtain ⟨p, q, h₁, -, rfl⟩ := h'
      have := ih h₁
      simp; omega
    unfold splitAtPair? at h
    split at h
    · split at h
      · simp only [Option.some.injEq, Prod.mk.injEq] at h
        simp [← h.2]; omega
      · exact tail h
    · exact tail h

theorem length_le_of_scanComment {cs body after : List Char}
    (h : scanComment cs = (body, some after)) : after.length ≤ cs.length := by
  fun_induction scanComment cs generalizing body with
  | case1 => simp at h
  | case2 => simp at h
  | case3 rest => simp_all; omega
  | case4 c rest _ b a hr ih =>
    simp only [Prod.mk.injEq] at h
    obtain ⟨-, h₂⟩ := h
    subst h₂
    have := ih hr
    simp; omega
  | case5 c rest _ _ _ b a hr ih =>
    simp only [Prod.mk.injEq] at h
    obtain ⟨-, h₂⟩ := h
    subst h₂
    have := ih hr
    simp; omega

theorem length_le_of_scanLiteral {cs body after : List Char}
    (h : scanLiteral cs = (body, some after)) : after.length ≤ cs.length := by
  have := congrArg List.length (eq_append_of_scanLiteral h)
  simp at this
  omega

/-- A piece leaves no more than the characters after its first. -/
theorem length_rest_next_le (c : Char) (cs : List Char) : (next c cs).rest.length ≤ cs.length := by
  unfold next
  split <;> try (simp [Piece.rest]; done)
  · simp [Piece.rest]; omega
  · split
    · next h => simpa [Piece.rest] using length_le_of_scanLiteral h
    · simp [Piece.rest]
  · split
    · next h =>
      have := length_le_of_splitAtPair? h
      simp [Piece.rest]; omega
    · simp [Piece.rest]
  · split
    · next h =>
      have := length_le_of_splitAtPair? h
      simp [Piece.rest]; omega
    · simp [Piece.rest]
  · next rest =>
    have := length_dropWhile_le (· != '\n') rest
    simp [Piece.rest] at *; omega
  · split
    · next h =>
      have := length_le_of_scanComment h
      simp [Piece.rest]; omega
    · simp [Piece.rest]
  · split
    · simp [Piece.rest]
    · split
      · exact length_dropWhile_le isWordPart cs
      · simp [Piece.rest, strayCharacter]

/-- The tokens of a text that begins at the offset `pos`. -/
def scanFrom (pos : Nat) (input : List Char) : Except SyntaxError (List (Located Token)) :=
  match input with
  | [] => .ok []
  | c :: cs =>
    match _h : next c cs with
    | .skipped bytes rest => scanFrom (pos + bytes) rest
    | .token token bytes rest => do
      let more ← scanFrom (pos + bytes) rest
      return ⟨token, ⟨pos, pos + bytes⟩⟩ :: more
    | .fault bytes fault => .error ⟨⟨pos, pos + bytes⟩, fault⟩
termination_by input.length
decreasing_by
  all_goals
    have h := length_rest_next_le c cs
    rw [_h] at h
    exact Nat.lt_succ_of_le h

/-- The tokens of a group file (`lex_group`). -/
def scan (source : List Char) : Except SyntaxError (List (Located Token)) :=
  scanFrom 0 source

end Stencil.GroupFile
