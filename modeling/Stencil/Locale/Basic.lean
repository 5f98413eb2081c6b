/-!
# Locales

A locale says how numbers are written: which character divides the fraction off, which one stands between
groups of digits and how large these groups are.
-/

namespace Stencil

/-- How numbers are written. -/
structure Locale where
  tag : String
  decimal : Char
  grouping : Option Char
  groupSize : Nat := 3
  groupSize_pos : 0 < groupSize := by decide
deriving DecidableEq, Repr

/-- The locale that belongs to no language: a period in front of the fraction, commas between groups. -/
def Locale.root : Locale where
  tag := "root"
  decimal := '.'
  grouping := some ','

instance : Inhabited Locale := ⟨.root⟩

end Stencil
