/-!
# Binary floating-point numbers of 64 bits

A number is its bit pattern: a sign bit, eleven bits of exponent, 52 bits of fraction. A finite number
is `significand * 2 ^ exponent`, up to its sign; all arithmetic on it is exact arithmetic on these two.
-/

namespace Stencil

/-- A binary floating-point number, given by its 64 bits. -/
structure Binary64 where
  /-- The bit pattern, sign first. -/
  bits : UInt64
deriving DecidableEq, Repr

namespace Binary64

/-- Whether the sign bit is set; it may be set on a zero and on a NaN. -/
def isNegative (x : Binary64) : Bool :=
  x.bits.toNat / Nat.pow 2 63 == 1

def exponentField (x : Binary64) : Nat :=
  x.bits.toNat / Nat.pow 2 52 % Nat.pow 2 11

def fraction (x : Binary64) : Nat :=
  x.bits.toNat % Nat.pow 2 52

/-- Whether the number is neither infinite nor NaN. -/
def isFinite (x : Binary64) : Bool :=
  x.exponentField != Nat.pow 2 11 - 1

def isNaN (x : Binary64) : Bool :=
  !x.isFinite && x.fraction != 0

/-- The integral significand of a finite number; normal numbers have an implicit leading bit. -/
def significand (x : Binary64) : Nat :=
  if x.exponentField = 0 then x.fraction else x.fraction + Nat.pow 2 52

/-- The power of two that the significand of a finite number is multiplied by. -/
def exponent (x : Binary64) : Int :=
  (max x.exponentField 1 : Nat) - 1075

def isZero (x : Binary64) : Bool :=
  x.isFinite && x.significand == 0

/-- Numeric equality: a NaN differs from everything, itself included, and the two zeros are equal. -/
def equals (x y : Binary64) : Bool :=
  !x.isNaN && !y.isNaN && (x.bits == y.bits || (x.isZero && y.isZero))

/-- Half of the way from one number to the next, counted down for a number whose lower neighbour is
closer: the significand is a power of two and the exponent can still fall. -/
def narrowBelow (x : Binary64) : Bool :=
  x.fraction == 0 && 1 < x.exponentField

/-- Rounds a quotient to the nearest integer, a tie to the even neighbour. -/
def roundTiesEven (n d : Nat) : Nat :=
  let q := n / d
  let r := n % d
  if 2 * r < d then q else if d < 2 * r then q + 1 else if q % 2 = 0 then q else q + 1

def bitLength (n : Nat) : Nat :=
  if n = 0 then 0 else n.log2 + 1

/-- The number nearest to an integer, a tie to the even significand. Integers of magnitude `2 ^ 1024`
and more become infinite. -/
def ofInt (i : Int) : Binary64 :=
  let n := i.natAbs
  let sign := if i < 0 then Nat.pow 2 63 else 0
  let len := bitLength n
  let magnitude :=
    if n = 0 then 0
    else if len ≤ 53 then (len + 1022) * Nat.pow 2 52 + (n * Nat.pow 2 (53 - len) - Nat.pow 2 52)
    -- A significand that rounds up to 2 ^ 53 carries into the exponent field.
    else (len + 1022) * Nat.pow 2 52 + (roundTiesEven n (Nat.pow 2 (len - 53)) - Nat.pow 2 52)
  ⟨UInt64.ofNat (sign + min magnitude (2047 * Nat.pow 2 52))⟩

end Binary64

end Stencil
