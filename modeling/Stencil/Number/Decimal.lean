import Stencil.Number.Binary64
import Stencil.Text.Word

/-!
# Decimal forms of numbers

A decimal is a sequence of digits with the place of the point. `Binary64.shortest` finds the fewest
digits that read back as a given number and, of those, the ones nearest to it. `Decimal.roundHalfUp`
rounds a decimal at a place after the point; `Binary64.scientific` rounds a binary number itself to a
number of significant digits.
-/

namespace Stencil

/-- A non-negative decimal: the digits after a point, moved `point` places to the right. -/
structure Decimal where
  /-- The digits, most significant first. -/
  digits : List Nat
  /-- How many digits stand before the point. -/
  point : Int
deriving DecidableEq, Repr

namespace Decimal

/-- The decimal `n * 10 ^ shift`, without zeros at its end. -/
def ofScaled (n : Nat) (shift : Int) : Decimal :=
  let ds := Stencil.digits 10 n
  ⟨(ds.reverse.dropWhile (· == 0)).reverse, ds.length + shift⟩

/-- Adds a unit in the last place; tells whether the first digit overflowed. -/
def addUnit : List Nat → Bool × List Nat
  | [] => (true, [])
  | d :: ds =>
    match addUnit ds with
    | (false, ds') => (false, d :: ds')
    | (true, ds') => if d = 9 then (true, 0 :: ds') else (false, (d + 1) :: ds')

/-- The digits with zeros put in front, so that at least one stands before the point. -/
def withUnits (d : Decimal) : List Nat :=
  List.replicate (1 - d.point).toNat 0 ++ d.digits

/-- The digits of an integer part without superfluous zeros in front. -/
def trimZeros (ds : List Nat) : List Nat :=
  match ds.dropWhile (· == 0) with
  | [] => [0]
  | ds' => ds'

/-- Rounds to `places` digits after the point, a half upwards (`fixed_half_up`). The first part holds the digits
before the point, the second those after it. -/
def roundHalfUp (d : Decimal) (places : Nat) : List Nat × List Nat :=
  let ds := d.withUnits
  let units := (max d.point 1).toNat
  let kept := ds.take (units + places) ++ List.replicate (units + places - ds.length) 0
  let up := 5 ≤ (ds[units + places]?).getD 0
  let rounded :=
    if up then
      match addUnit kept with
      | (true, kept') => 1 :: kept'
      | (false, kept') => kept'
    else kept
  let n := rounded.length - places
  (trimZeros (rounded.take n), rounded.drop n)

/-- The decimal in positional notation, with a point only where a fraction follows. -/
def positional (d : Decimal) : List Char :=
  if d.point ≤ 0 then
    ['0', '.'] ++ List.replicate (-d.point).toNat '0' ++ d.digits.map digitChar
  else
    let n := d.point.toNat
    if d.digits.length ≤ n then
      d.digits.map digitChar ++ List.replicate (n - d.digits.length) '0'
    else
      (d.digits.take n).map digitChar ++ '.' :: (d.digits.drop n).map digitChar

end Decimal

namespace Binary64

/-- A power with an integer exponent, as a numerator and a denominator. -/
def ratioPow (base : Nat) (e : Int) : Nat × Nat :=
  (Nat.pow base e.toNat, Nat.pow base (-e).toNat)

/-- The place of the first digit of a positive quotient: the least `e` with `n / d < 10 ^ e`. -/
def decimalPlace (n d : Nat) : Int :=
  if d ≤ n then (digits 10 (n / d)).length else 1 - (digits 10 ((d - 1) / n)).length

/-- The magnitude of a finite number as a quotient, in quarters of a unit of its last place. -/
def quarters (x : Binary64) : Nat × Nat :=
  ratioPow 2 (x.exponent - 2)

/-- The multiple of `10 ^ shift` beside the magnitude of a positive finite number that reads back as the
number, and is the nearer of two that do; a tie goes up. Reading rounds to the nearest number and a tie
to the even significand, so the ends of the interval count only for an even significand. -/
def neighbour? (x : Binary64) (shift : Int) : Option Nat :=
  let (p, q) := x.quarters
  let (s, t) := ratioPow 10 shift
  let unit := p * t
  let scale := q * s
  let low := (4 * x.significand - if x.narrowBelow then 1 else 2) * unit
  let exact := 4 * x.significand * unit
  let high := (4 * x.significand + 2) * unit
  let inside := fun c : Nat =>
    if x.significand % 2 = 0 then decide (low ≤ c * scale ∧ c * scale ≤ high)
    else decide (low < c * scale ∧ c * scale < high)
  let down := exact / scale
  let up := down + 1
  match inside down, inside up with
  | true, true => if exact - down * scale < up * scale - exact then some down else some up
  | true, false => some down
  | false, true => some up
  | false, false => none

/-- The shortest decimal that reads back as a finite number's magnitude, nearest to it among the
shortest. Seventeen digits always suffice. -/
def shortest (x : Binary64) : Decimal :=
  if x.significand = 0 then ⟨[0], 1⟩
  else
    let (p, q) := x.quarters
    let place := decimalPlace (4 * x.significand * p) q
    let found := (List.range 17).findSome? fun (n : Nat) =>
      let shift := place - (n + 1)
      (x.neighbour? shift).map fun c => Decimal.ofScaled c shift
    found.getD ⟨[0], 1⟩

/-- A finite number's magnitude rounded to `places + 1` significant digits, a tie to the even digit: the
digits and the exponent of ten of the first one. -/
def scientific (x : Binary64) (places : Nat) : List Nat × Int :=
  if x.significand = 0 then (List.replicate (places + 1) 0, 0)
  else
    let (p, q) := x.quarters
    let place := decimalPlace (4 * x.significand * p) q
    let (s, t) := ratioPow 10 (place - (places + 1))
    let ds := digits 10 (roundTiesEven (4 * x.significand * p * t) (q * s))
    -- Rounding up may add a digit, which is then a one before zeros.
    (ds.take (places + 1), place - 1 + (ds.length - (places + 1) : Nat))

/-- The plain text of a number: positional, with the fewest digits that read back. -/
def text (x : Binary64) : List Char :=
  if x.isNaN then "NaN".toList
  else
    let magnitude := if x.isFinite then x.shortest.positional else "inf".toList
    if x.isNegative then '-' :: magnitude else magnitude

end Binary64

end Stencil
