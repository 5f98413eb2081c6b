import Stencil.Text.Blank
import Stencil.Text.Span
import Stencil.Text.Word

/-!
# Strings, keys and spacing in TOML

A reader takes a value off the beginning of a text; its result carries the proof that what it leaves is
no longer than the text was, which is why the readers that call each other end.
-/

namespace Stencil.Toml

/-- Reads a value from the beginning of a text, if there is one. -/
abbrev Reader (α : Type) := (cs : List Char) → Option (Parsed α cs)

/-- Whether a comment or a literal string may have the character: control characters but the tab are
excluded. -/
def isPlain (c : Char) : Bool :=
  c == '\t' || (' ' ≤ c && c ≠ '\x7f')

/-! ## Spacing -/

def spaces (cs : List Char) : Parsed Unit cs :=
  ⟨(), cs.dropWhile isInlineBlank, length_dropWhile_le isInlineBlank cs⟩

def comment (cs : List Char) : Parsed Unit cs :=
  match cs with
  | '#' :: rest => .behind '#' ⟨(), rest.dropWhile isPlain, length_dropWhile_le isPlain rest⟩
  | cs => .here () cs

/-- Reads the end of a line: a line feed, perhaps after a carriage return, or the end of the text. -/
def lineEnd : Reader Unit
  | '\n' :: rest => some (.behind '\n' (.here () rest))
  | '\r' :: '\n' :: rest => some (.behind '\r' (.behind '\n' (.here () rest)))
  | [] => some (.here () [])
  | _ => none

def breaks (cs : List Char) : Parsed Unit cs :=
  match cs with
  | '\n' :: rest => (breaks rest).behind '\n'
  | '\r' :: '\n' :: rest => ((breaks rest).behind '\n').behind '\r'
  | c :: rest => if isInlineBlank c then (breaks rest).behind c else .here () (c :: rest)
  | [] => .here () []

def filler (cs : List Char) : Parsed Unit cs :=
  match cs with
  | '#' :: rest =>
    have h := length_dropWhile_le isPlain rest
    ((filler (rest.dropWhile isPlain)).after h).behind '#'
  | c :: rest =>
    if isInlineBlank c || c == '\n' || (c == '\r' && rest.head? == some '\n') then (filler rest).behind c
    else .here () (c :: rest)
  | [] => .here () []
termination_by cs.length
decreasing_by all_goals (simp only [List.length_cons]; omega)

/-! ## Strings -/

def codePoint? (ds : List Char) : Option Char := do
  let n ← numeralValue? 16 ds
  if n < 0xD800 ∨ (0xDFFF < n ∧ n < 0x110000) then some (Char.ofNat n) else none

/-- Reads an escape, from what follows its backslash. -/
def escape : Reader Char
  | 'b' :: rest => some ⟨'\x08', rest, by simp⟩
  | 't' :: rest => some ⟨'\t', rest, by simp⟩
  | 'n' :: rest => some ⟨'\n', rest, by simp⟩
  | 'f' :: rest => some ⟨'\x0c', rest, by simp⟩
  | 'r' :: rest => some ⟨'\r', rest, by simp⟩
  | '"' :: rest => some ⟨'"', rest, by simp⟩
  | '\\' :: rest => some ⟨'\\', rest, by simp⟩
  | 'u' :: cs => numbered 4 cs
  | 'U' :: cs => numbered 8 cs
  | _ => none
where
  numbered (n : Nat) {c : Char} (cs : List Char) : Option (Parsed Char (c :: cs)) :=
    if cs.length < n then none
    else (codePoint? (cs.take n)).map fun x => ⟨x, cs.drop n, by simp; omega⟩

def basicString (cs : List Char) : Option (Parsed (List Char) cs) :=
  match cs with
  | [] => none
  | c :: cs =>
    if c == '"' then some (.behind c (.here [] cs))
    else if c == '\\' then do
      let ⟨x, r, h⟩ ← escape cs
      let more ← basicString r
      return ((more.map (x :: ·)).after h).behind c
    else if isPlain c then do
      let more ← basicString cs
      return (more.map (c :: ·)).behind c
    else none
termination_by cs.length
decreasing_by all_goals (simp only [List.length_cons]; omega)

def literalString (cs : List Char) : Option (Parsed (List Char) cs) :=
  match cs with
  | [] => none
  | c :: cs =>
    if c == '\'' then some (.behind c (.here [] cs))
    else if isPlain c then do
      let more ← literalString cs
      return (more.map (c :: ·)).behind c
    else none

/-- Reads a string of several lines between triple quotes, from what follows the opening ones. Up to two
quotes may stand before the closing ones. `escapes` tells whether a backslash has a meaning; at the end
of a line it drops the break and the spacing after it. -/
def blockString (quote : Char) (escapes : Bool) (cs : List Char) : Option (Parsed (List Char) cs) :=
  match cs with
  | [] => none
  | c :: cs =>
    if c == quote && cs.take 2 == [quote, quote] then
      let more := ((cs.drop 2).takeWhile (· == quote)).take 2
      some (.behind c ⟨more, cs.drop (2 + more.length), (List.drop_sublist ..).length_le⟩)
    else if c == '\\' && escapes then
      let ⟨_, r, h⟩ := spaces cs
      match r.head? with
      | some '\n' | some '\r' => do
        let ⟨_, r₁, h₁⟩ ← lineEnd r
        let ⟨_, r₂, h₂⟩ := breaks r₁
        let more ← blockString quote escapes r₂
        return (((more.after h₂).after h₁).after h).behind c
      | _ => do
        let ⟨x, r, h⟩ ← escape cs
        let more ← blockString quote escapes r
        return ((more.map (x :: ·)).after h).behind c
    else if c == '\n' || isPlain c then do
      let more ← blockString quote escapes cs
      return (more.map (c :: ·)).behind c
    else if c == '\r' && cs.head? == some '\n' then do
      let more ← blockString quote escapes cs
      return more.behind c
    else none
termination_by cs.length
decreasing_by all_goals (simp only [List.length_cons]; omega)

/-- Reads a string of several lines, from what follows its opening quotes on; a line break right after
them does not count. -/
def block (quote : Char) (escapes : Bool) (cs : List Char) : Option (Parsed (List Char) cs) :=
  match cs with
  | '\n' :: r => do
    let s ← blockString quote escapes r
    return s.behind '\n'
  | '\r' :: '\n' :: r => do
    let s ← blockString quote escapes r
    return (s.behind '\n').behind '\r'
  | cs => blockString quote escapes cs

/-! ## Keys -/

def isBareKeyPart (c : Char) : Bool :=
  c.isAlphanum || c == '-' || c == '_'

def simpleKey (cs : List Char) : Option (Parsed String cs) :=
  match cs with
  | '"' :: r => do
    let s ← basicString r
    return (s.map String.ofList).behind '"'
  | '\'' :: r => do
    let s ← literalString r
    return (s.map String.ofList).behind '\''
  | cs =>
    let s := cs.takeWhile isBareKeyPart
    if s.isEmpty then none
    else some ⟨String.ofList s, cs.dropWhile isBareKeyPart, length_dropWhile_le isBareKeyPart cs⟩

/-- Reads the parts of a key with periods between them and spacing around each. -/
def keyParts (cs : List Char) : Option (Parsed (List String) cs) := do
  let ⟨_, r₁, h₁⟩ := spaces cs
  let ⟨part, r₂, h₂⟩ ← simpleKey r₁
  let ⟨_, r₃, h₃⟩ := spaces r₂
  match hr : r₃ with
  | '.' :: r₄ =>
    have hr := congrArg List.length hr
    have : r₄.length < cs.length := by simp at hr; omega
    let more ← keyParts r₄
    return (more.map (part :: ·)).after (Nat.le_of_lt this)
  | _ => return ((Parsed.mk [part] r₃ h₃).after h₂).after h₁
termination_by cs.length

end Stencil.Toml
