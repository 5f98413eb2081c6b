import Stencil.Format.Specifier
import Stencil.Locale.Basic
import Stencil.Text.Case
import Stencil.Value.Basic

/-!
# Converting values by a specifier

Fixed places are rounded from the fewest digits that read back as the number, a half upwards; places of a
number with an exponent are rounded from the number itself. A zero has no sign.
-/

namespace Stencil.Format

/-- Fills a text up with spaces. -/
def pad (s : Specifier) (cs : List Char) : List Char :=
  let fill := List.replicate (s.width.getD 0 - cs.length) ' '
  if s.flags.left then cs ++ fill else fill ++ cs

/-- What stands before and after the digits of a number for its sign. -/
def signs (f : Flags) (negative : Bool) : List Char × List Char :=
  if negative then (if f.paren then (['('], [')']) else (['-'], []))
  else if f.plus then (['+'], [])
  else if f.space then ([' '], [])
  else ([], [])

/-- Writes the sign of a number and fills it up. Zeros go between the sign and the digits. -/
def signed (s : Specifier) (negative : Bool) (body : List Char) : List Char :=
  let (before, after) := signs s.flags negative
  if s.flags.zero && !s.flags.left then
    let length := before.length + body.length + after.length
    before ++ List.replicate (s.width.getD 0 - length) '0' ++ body ++ after
  else pad s (before ++ body ++ after)

/-- Sets groups of `size` digits apart, counted from the right (`group`). -/
def setApart (separator : Char) (size : Nat) : List Char → List Char
  | [] => []
  | [c] => [c]
  | c :: cs =>
    if cs.length % size = 0 then c :: separator :: setApart separator size cs
    else c :: setApart separator size cs

/-- Sets groups of digits apart as the locale does, if the specifier asks for it. -/
def grouped (s : Specifier) (l : Locale) (ds : List Char) : List Char :=
  match s.flags.group, l.grouping with
  | true, some separator => setApart separator l.groupSize ds
  | _, _ => ds

def integer (c : Conversion) : Value → Except RenderFault Int
  | .int n => .ok n
  | v => .error (.integerRequired c.letter v.typeName)

/-- The number that a conversion needs (`float`). -/
def number (c : Conversion) : Value → Except RenderFault Binary64
  | .float x => .ok x
  | .int n => .ok (.ofInt n)
  | v => .error (.numberRequired c.letter v.typeName)

/-- The text of a number that is not finite (`non_finite`). -/
def nonFinite (x : Binary64) : List Char :=
  if x.isNaN then "NaN".toList
  else if x.isNegative then "-Infinity".toList
  else "Infinity".toList

def isMinus (x : Binary64) : Bool :=
  x.isNegative && !x.isZero

/-- Digits and the digits of a fraction, with the locale's separator between them if there is one. -/
def withFraction (l : Locale) (whole fraction : List Char) : List Char :=
  if fraction.isEmpty then whole else whole ++ l.decimal :: fraction

/-- The number of places where a specifier names none. -/
def defaultPlaces : Nat := 6

/-- A number with fixed places. -/
def fixed (s : Specifier) (l : Locale) (x : Binary64) : List Char :=
  let (whole, fraction) := x.shortest.roundHalfUp (s.precision.getD defaultPlaces)
  withFraction l (grouped s l (whole.map digitChar)) (fraction.map digitChar)

/-- The exponent of a number: a sign and at least two digits. -/
def exponentText (e : Int) : List Char :=
  let ds := numeral 10 e.natAbs
  (if e < 0 then '-' else '+') :: List.replicate (2 - ds.length) '0' ++ ds

/-- A number with an exponent of ten. -/
def scientific (s : Specifier) (l : Locale) (x : Binary64) : List Char :=
  let (ds, e) := x.scientific (s.precision.getD defaultPlaces)
  withFraction l ((ds.take 1).map digitChar) ((ds.drop 1).map digitChar) ++ 'e' :: exponentText e

/-- The bits of an integer, as a number in the given base. -/
def bits (base : Nat) (n : Int) : List Char :=
  numeral base (n % wordLimit).toNat

/-- The text that a specifier makes of a value (`apply`). -/
def convert (s : Specifier) (v : Value) (l : Locale) : Except RenderFault (List Char) := do
  let c := s.conversion
  match c with
  | .decimal =>
    let n ← integer c v
    return signed s (n < 0) (grouped s l (numeral 10 n.natAbs))
  | .hex | .upperHex | .octal =>
    let n ← integer c v
    if s.flags.group || s.flags.plus || s.flags.space || s.flags.paren then
      .error (.bitFlags c.letter)
    else
      let ds := bits (if c = .octal then 8 else 16) n
      return signed s false (if c = .upperHex then ds.map Char.toUpper else ds)
  | .fixed =>
    let x ← number c v
    if x.isFinite then return signed s (isMinus x) (fixed s l x)
    else return pad s (nonFinite x)
  | .scientific | .upperScientific =>
    if s.flags.group then .error .scientificGrouping
    else
      let x ← number c v
      if x.isFinite then
        let body := scientific s l x
        return signed s (isMinus x) (if c = .upperScientific then upperText body else body)
      else return pad s (nonFinite x)
  | .text | .upperText =>
    if s.flags.zero || s.flags.group || s.flags.plus || s.flags.paren then
      .error (.textFlags c.letter)
    else
      let cs := v.text.toList
      let cs := match s.precision with
        | some limit => cs.take limit
        | none => cs
      return pad s (if c = .upperText then upperText cs else cs)

/-- The text of the pieces of a format. Only one piece may ask for the value; `used` tells whether one
has. -/
def writePieces (v : Value) (l : Locale) (used : Bool) : List Piece → Except RenderFault (List Char)
  | [] => .ok []
  | .literal c :: rest => do
    let more ← writePieces v l used rest
    return c :: more
  | .value s :: rest =>
    if used then .error .secondValue
    else do
      let cs ← convert s v l
      let more ← writePieces v l true rest
      return cs ++ more

/-- The text that a format makes of a value. Of several faults the leftmost counts. -/
def format (source : List Char) (v : Value) (l : Locale) : Except RenderFault (List Char) := do
  let (found, fault) := pieces source
  let cs ← writePieces v l false found
  match fault with
  | some fault => .error fault
  | none => return cs

end Stencil.Format
