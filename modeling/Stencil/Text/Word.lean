/-!
# Words and numerals

A word is an ASCII letter or underscore followed by ASCII letters, digits and underscores. Numerals
are sequences of ASCII digits in a base up to sixteen.
-/

namespace Stencil

def isWordStart (c : Char) : Bool :=
  c.isAlpha || c == '_'

def isWordPart (c : Char) : Bool :=
  c.isAlphanum || c == '_'

def isWord : List Char → Bool
  | [] => false
  | c :: cs => isWordStart c && cs.all isWordPart

theorem length_dropWhile_le {α : Type} (p : α → Bool) (l : List α) :
    (l.dropWhile p).length ≤ l.length :=
  (List.dropWhile_sublist p).length_le

def splitWord? : List Char → Option (List Char × List Char)
  | [] => none
  | c :: cs =>
    if isWordStart c then some (c :: cs.takeWhile isWordPart, cs.dropWhile isWordPart) else none

theorem length_lt_of_splitWord? {cs w rest : List Char} (h : splitWord? cs = some (w, rest)) :
    rest.length < cs.length := by
  unfold splitWord? at h
  split at h
  · simp at h
  · next c cs =>
    split at h
    · have := length_dropWhile_le isWordPart cs
      simp only [Option.some.injEq, Prod.mk.injEq] at h
      rw [h.2] at this
      simp; omega
    · simp at h

/-- The value of a digit, upper or lower case from ten on. -/
def digitValue? (c : Char) : Option Nat :=
  if c.isDigit then some (c.toNat - '0'.toNat)
  else if 'a' ≤ c ∧ c ≤ 'f' then some (c.toNat - 'a'.toNat + 10)
  else if 'A' ≤ c ∧ c ≤ 'F' then some (c.toNat - 'A'.toNat + 10)
  else none

/-- The value of a numeral in the given base, if every character is a digit of that base. The empty
text counts as zero. -/
def numeralValue? (base : Nat) (cs : List Char) : Option Nat :=
  cs.foldlM (fun n c => do
    let d ← digitValue? c
    if d < base then some (n * base + d) else none) 0

def decimalValue (cs : List Char) : Nat :=
  cs.foldl (fun n c => n * 10 + (c.toNat - '0'.toNat)) 0

/-- The digits of a number, most significant first; zero has the one digit `0`. -/
def digits (base n : Nat) : List Nat :=
  go n []
where
  /-- Puts the digits of `n` before those already found. -/
  go (n : Nat) (found : List Nat) : List Nat :=
    if _h : n < base ∨ base < 2 then n :: found else go (n / base) (n % base :: found)
  termination_by n
  decreasing_by exact Nat.div_lt_self (by omega) (by omega)

def digitChar (d : Nat) : Char :=
  if d < 10 then Char.ofNat ('0'.toNat + d) else Char.ofNat ('a'.toNat + (d - 10))

def numeral (base n : Nat) : List Char :=
  (digits base n).map digitChar

/-- The bound of the indices and sizes a template may name: a machine word of 64 bits. -/
def wordLimit : Nat := Nat.pow 2 64

/-- Reads an index: decimal digits, perhaps after a plus sign, below `wordLimit`. -/
def index? (cs : List Char) : Option Nat :=
  let ds := match cs with
    | '+' :: rest => rest
    | _ => cs
  if ds.isEmpty || !ds.all Char.isDigit then none
  else
    let n := decimalValue ds
    if n < wordLimit then some n else none

end Stencil
