import Stencil.Text.Word
import Stencil.Toml.Item

/-!
# Numbers, dates and times in TOML

A number, a date or a time is one unbroken run of characters, except that a date and a time may have a
space between them. Underscores may stand between digits.
-/

namespace Stencil.Toml

/-- The digits without the underscores between them; no digits is nothing. `first` tells that a digit has
to follow. -/
def ungroup? (isDigit : Char → Bool) (first : Bool) : List Char → Option (List Char)
  | [] => if first then none else some []
  | c :: cs =>
    if isDigit c then (ungroup? isDigit false cs).map (c :: ·)
    else if c == '_' && !first then ungroup? isDigit true cs
    else none

/-- A decimal integer without sign and without superfluous zeros in front. -/
def natural? (cs : List Char) : Option Nat := do
  let ds ← ungroup? Char.isDigit true cs
  if ds.head? = some '0' ∧ ds.length ≠ 1 then none else some (decimalValue ds)

/-- An integer in the given base, from what follows its mark. -/
def based? (base : Nat) (cs : List Char) : Option Int := do
  let isDigit := fun c => (digitValue? c).any (· < base)
  let n ← numeralValue? base (← ungroup? isDigit true cs)
  if n < Nat.pow 2 63 then some n else none

def integer? : List Char → Option Int
  | '0' :: 'x' :: cs => based? 16 cs
  | '0' :: 'o' :: cs => based? 8 cs
  | '0' :: 'b' :: cs => based? 2 cs
  | '-' :: cs => do
    let n ← natural? cs
    if n ≤ Nat.pow 2 63 then some (-n) else none
  | '+' :: cs => positive? cs
  | cs => positive? cs
where
  positive? (cs : List Char) : Option Int := do
    let n ← natural? cs
    if n < Nat.pow 2 63 then some n else none

def dropSign : List Char → List Char
  | '+' :: cs => cs
  | '-' :: cs => cs
  | cs => cs

/-- Whether `n * 10 ^ e` is too large for a floating-point number: it lies at or above the midpoint
between the largest number and `2 ^ 1024`. -/
def overflows (n : Nat) (e : Int) : Bool :=
  let size := (digits 10 n).length + e
  -- The bound has 309 digits; a power of ten is worked out only where the sizes do not decide.
  if n = 0 ∨ size < 309 then false
  else if 309 < size then true
  else (Nat.pow 2 1024 - Nat.pow 2 970) * Nat.pow 10 (-e).toNat ≤ n * Nat.pow 10 e.toNat

def spanDigits (cs : List Char) : List Char × List Char :=
  cs.span fun c => c.isDigit || c == '_'

/-- The exponent of a floating-point number, from its letter on; none is zero. -/
def exponent? : List Char → Option Int
  | [] => some 0
  | c :: cs =>
    if c == 'e' || c == 'E' then do
      let n := decimalValue (← ungroup? Char.isDigit true (dropSign cs))
      return if cs.head? = some '-' then -n else n
    else none

/-- Whether the text is a floating-point number. A number too large for the format is refused, a negative
one stands for the infinity. -/
def isFloat (cs : List Char) : Bool :=
  let magnitude := dropSign cs
  if magnitude == "inf".toList || magnitude == "nan".toList then true
  else
    let (whole, r) := spanDigits magnitude
    let (part, r') := match r with
      | '.' :: r => spanDigits r
      | _ => ([], r)
    let parts := do
      guard (r ≠ [])
      let _ ← natural? whole
      let ds ← ungroup? Char.isDigit true whole
      let fs ← if r.head? = some '.' then ungroup? Char.isDigit true part else some []
      let e ← exponent? r'
      return (decimalValue (ds ++ fs), e - fs.length)
    match parts with
    | some (n, e) => cs.head? = some '-' || !overflows n e
    | none => false

def daysInMonth (year month : Nat) : Nat :=
  let leap := year % 4 = 0 ∧ (year % 100 ≠ 0 ∨ year % 400 = 0)
  if month = 2 then (if leap then 29 else 28)
  else if month = 4 ∨ month = 6 ∨ month = 9 ∨ month = 11 then 30 else 31

def twoDigits? (a b : Char) : Option Nat :=
  if a.isDigit && b.isDigit then some (decimalValue [a, b]) else none

/-- Whether the text is a date; if it is, what follows it. -/
def afterDate? : List Char → Option (List Char)
  | y₁ :: y₂ :: y₃ :: y₄ :: '-' :: m₁ :: m₂ :: '-' :: d₁ :: d₂ :: rest => do
    let century ← twoDigits? y₁ y₂
    let year ← twoDigits? y₃ y₄
    let month ← twoDigits? m₁ m₂
    let day ← twoDigits? d₁ d₂
    guard (1 ≤ month ∧ month ≤ 12 ∧ 1 ≤ day ∧ day ≤ daysInMonth (century * 100 + year) month)
    return rest
  | _ => none

/-- Whether the text begins with a time; if it does, what follows it. A minute may have a leap second. -/
def afterTime? : List Char → Option (List Char)
  | h₁ :: h₂ :: ':' :: m₁ :: m₂ :: ':' :: s₁ :: s₂ :: rest => do
    guard ((← twoDigits? h₁ h₂) < 24 ∧ (← twoDigits? m₁ m₂) < 60 ∧ (← twoDigits? s₁ s₂) ≤ 60)
    match rest with
    | '.' :: c :: rest => if c.isDigit then return rest.dropWhile Char.isDigit else none
    | '.' :: [] => none
    | rest => return rest
  | _ => none

/-- Whether the text is an offset from universal time; no text is none. -/
def isOffset : List Char → Bool
  | [] => true
  | ['Z'] => true
  | ['z'] => true
  | [sign, h₁, h₂, ':', m₁, m₂] =>
    (sign == '+' || sign == '-') && (twoDigits? h₁ h₂).any (· < 24) && (twoDigits? m₁ m₂).any (· < 60)
  | _ => false

/-- Whether the text is a date, a time, or a date and a time with or without an offset. -/
def isDateTime (cs : List Char) : Bool :=
  match afterDate? cs with
  | some [] => true
  | some (c :: rest) =>
    (c == 'T' || c == 't' || c == ' ') && (afterTime? rest).any isOffset
  | none => afterTime? cs == some []

def isNumeralPart (c : Char) : Bool :=
  c.isAlphanum || c == '+' || c == '-' || c == '.' || c == '_' || c == ':'

/-- Splits off the run that a number, a date or a time at the beginning of a text would be. -/
def spanNumeral (cs : List Char) : List Char × List Char :=
  let first := cs.takeWhile isNumeralPart
  let rest := cs.dropWhile isNumeralPart
  match afterDate? first, rest with
  | some [], ' ' :: c :: more =>
    if c.isDigit then
      (first ++ ' ' :: (c :: more).takeWhile isNumeralPart, (c :: more).dropWhile isNumeralPart)
    else (first, rest)
  | _, _ => (first, rest)

theorem length_spanNumeral_le (cs : List Char) : (spanNumeral cs).2.length ≤ cs.length := by
  have h := length_dropWhile_le isNumeralPart cs
  unfold spanNumeral
  dsimp only
  split
  · next c more _ hr =>
    split
    · have h₁ := length_dropWhile_le isNumeralPart (c :: more)
      rw [hr] at h
      simp at h h₁ ⊢
      omega
    · exact h
  · exact h

def numeral? (cs : List Char) : Option Item :=
  if isDateTime cs then some .dateTime
  else
    match integer? cs with
    | some n => some (.integer n)
    | none => if isFloat cs then some (.float (String.ofList cs)) else none

end Stencil.Toml
