import Stencil.Error
import Stencil.Text.Span
import Stencil.Text.Word

/-!
# Number and text formats

A format is text with specifiers in it. A specifier is a percent sign, flags, perhaps a width, perhaps a
period and a precision, and a conversion. `pieces` reads a format up to its first fault.
-/

namespace Stencil.Format

/-- The largest width or precision. -/
def fieldLimit : Nat := 4096

structure Flags where
  /-- Fills up on the right. -/
  left : Bool := false
  plus : Bool := false
  /-- Writes a space in place of a plus sign. -/
  space : Bool := false
  zero : Bool := false
  group : Bool := false
  /-- Writes negative numbers in parentheses. -/
  paren : Bool := false
deriving DecidableEq, Repr

/-- The flags after one more flag character; nothing if the character is no flag. -/
def Flags.add? (f : Flags) : Char → Option Flags
  | '-' => some { f with left := true }
  | '+' => some { f with plus := true }
  | ' ' => some { f with space := true }
  | '0' => some { f with zero := true }
  | ',' => some { f with group := true }
  | '(' => some { f with paren := true }
  | _ => none

/-- What a specifier turns a value into. -/
inductive Conversion where
  | decimal
  /-- The bits of an integer in hexadecimal. -/
  | hex
  | upperHex
  | octal
  | fixed
  | scientific
  | upperScientific
  | text
  | upperText
deriving DecidableEq, Repr

def Conversion.letter : Conversion → Char
  | decimal => 'd'
  | hex => 'x'
  | upperHex => 'X'
  | octal => 'o'
  | fixed => 'f'
  | scientific => 'e'
  | upperScientific => 'E'
  | text => 's'
  | upperText => 'S'

def Conversion.ofLetter? : Char → Option Conversion
  | 'd' => some decimal
  | 'x' => some hex
  | 'X' => some upperHex
  | 'o' => some octal
  | 'f' => some fixed
  | 'e' => some scientific
  | 'E' => some upperScientific
  | 's' => some text
  | 'S' => some upperText
  | _ => none

theorem Conversion.ofLetter?_letter (c : Conversion) : ofLetter? c.letter = some c := by
  cases c <;> rfl

/-- A specifier that asks for the value (`Spec`). -/
structure Specifier where
  flags : Flags := {}
  width : Option Nat := none
  /-- The number of places, or the bound on the length of a text. -/
  precision : Option Nat := none
  conversion : Conversion
deriving DecidableEq, Repr

/-- A piece of a format. -/
inductive Piece where
  | literal (c : Char)
  | value (s : Specifier)
deriving DecidableEq, Repr

def flags (f : Flags) (cs : List Char) : Parsed Flags cs :=
  match cs with
  | [] => ⟨f, [], Nat.le_refl _⟩
  | c :: cs =>
    match f.add? c with
    | some f' =>
      let ⟨g, rest, h⟩ := flags f' cs
      ⟨g, rest, by simp; omega⟩
    | none => ⟨f, c :: cs, Nat.le_refl _⟩

def field (cs : List Char) : Except RenderFault (Parsed (Option Nat) cs) :=
  let ds := cs.takeWhile Char.isDigit
  if ds.isEmpty then .ok ⟨none, cs, Nat.le_refl _⟩
  else if decimalValue ds ≤ fieldLimit then
    .ok ⟨some (decimalValue ds), cs.dropWhile Char.isDigit, length_dropWhile_le Char.isDigit cs⟩
  else .error (.fieldTooLarge (String.ofList ds) fieldLimit)

/-- Reads a precision, if a period announces one. -/
def precision (cs : List Char) : Except RenderFault (Parsed (Option Nat) cs) :=
  match cs with
  | '.' :: r => do
    let ⟨n, rest, h⟩ ← field r
    if n.isNone then .error .precisionMissing
    else return ⟨n, rest, by simp; omega⟩
  | cs => .ok ⟨none, cs, Nat.le_refl _⟩

/-- Reads what follows a percent sign. A second percent sign and the letter `n` stand for a percent sign
and a line feed, whatever comes before them. -/
def specifier (cs : List Char) : Except RenderFault (Parsed Piece cs) := do
  let ⟨f, r₁, h₁⟩ := flags {} cs
  let ⟨width, r₂, h₂⟩ ← field r₁
  let ⟨precision, r₃, h₃⟩ ← precision r₂
  match r₃, h₃ with
  | [], _ => .error .unfinishedSpecifier
  | c :: rest, h₃ =>
    let found := match c with
      | '%' => some (Piece.literal '%')
      | 'n' => some (Piece.literal '\n')
      | c => (Conversion.ofLetter? c).map fun conversion =>
        Piece.value { flags := f, width, precision, conversion }
    match found with
    | some piece => return ⟨piece, rest, by simp at h₃; omega⟩
    | none => .error (.unknownConversion c)

/-- The pieces of a format up to its first fault, and that fault. -/
def pieces (cs : List Char) : List Piece × Option RenderFault :=
  match cs with
  | [] => ([], none)
  | c :: r =>
    if c == '%' then
      match specifier r with
      | .error fault => ([], some fault)
      | .ok ⟨piece, rest, _⟩ =>
        let (more, fault) := pieces rest
        (piece :: more, fault)
    else
      let (more, fault) := pieces r
      (.literal c :: more, fault)
termination_by cs.length

end Stencil.Format
