import Stencil.Format.Conversion
import Stencil.Proofs.Agreement

/-!
# What a conversion asks for, and what it fills up

A conversion asks for a type of value and refuses some of the flags (`Specifier.Suits`); it gives a text exactly
where it is suited (`exists_convert_iff`), whatever the locale is. A number is filled up to its width in one of
three places (`Specifier.fill`), and what is added depends on the length of its text alone (`signed_eq`).
-/

namespace Stencil.Format

/-! ## Conversions one by one -/

def bitDigits (c : Conversion) (n : Int) : List Char :=
  let ds := bits (if c = .octal then 8 else 16) n
  if c = .upperHex then ds.map Char.toUpper else ds

/-- The text of a number that is written with the digits `body` if it is finite. -/
def floating (s : Specifier) (x : Binary64) (body : List Char) : List Char :=
  if x.isFinite then signed s (isMinus x) body else pad s (nonFinite x)

section
variable {s : Specifier} (v : Value) (l : Locale)

theorem convert_decimal (hs : s.conversion = .decimal) :
    convert s v l = (integer .decimal v).map fun n => signed s (n < 0) (grouped s l (numeral 10 n.natAbs)) := by
  simp only [convert, hs]
  cases integer .decimal v <;> rfl

theorem convert_bits (hs : s.conversion = .hex ∨ s.conversion = .upperHex ∨ s.conversion = .octal) :
    convert s v l = integer s.conversion v >>= fun n =>
      if s.flags.group || s.flags.plus || s.flags.space || s.flags.paren then .error (.bitFlags s.conversion.letter)
      else .ok (signed s false (bitDigits s.conversion n)) := by
  rcases hs with hs | hs | hs
  all_goals
    simp only [convert, hs]
    rfl

theorem convert_fixed (hs : s.conversion = .fixed) :
    convert s v l = (number .fixed v).map fun x => floating s x (fixed s l x) := by
  simp only [convert, hs]
  cases number .fixed v with
  | error fault => rfl
  | ok x => exact (apply_ite Except.ok ..).symm

theorem convert_scientific (hs : s.conversion = .scientific ∨ s.conversion = .upperScientific) :
    convert s v l =
      if s.flags.group then .error .scientificGrouping
      else (number s.conversion v).map fun x => floating s x
        (if s.conversion = .upperScientific then upperText (scientific s l x) else scientific s l x) := by
  rcases hs with hs | hs
  all_goals
    simp only [convert, hs]
    refine ite_congr rfl (fun _ => rfl) fun _ => ?_
    cases number _ v with
    | error fault => rfl
    | ok x => exact (apply_ite Except.ok ..).symm

theorem convert_text (hs : s.conversion = .text ∨ s.conversion = .upperText) :
    ∃ cs, convert s v l =
      if s.flags.zero || s.flags.group || s.flags.plus || s.flags.paren then .error (.textFlags s.conversion.letter)
      else .ok cs := by
  rcases hs with hs | hs
  all_goals
    simp only [convert, hs]
    exact ⟨_, rfl⟩

end

/-! ## The rules of conversions -/

def IsNumber (v : Value) : Prop :=
  (∃ n, v = .int n) ∨ ∃ x, v = .float x

/-- What each conversion asks of the value, and which flags it refuses. -/
def Specifier.Suits (s : Specifier) (v : Value) : Prop :=
  match s.conversion with
  | .decimal => ∃ n, v = .int n
  | .hex | .upperHex | .octal =>
    (∃ n, v = .int n) ∧ s.flags.group = false ∧ s.flags.plus = false ∧ s.flags.space = false ∧ s.flags.paren = false
  | .fixed => IsNumber v
  | .scientific | .upperScientific => IsNumber v ∧ s.flags.group = false
  | .text | .upperText =>
    s.flags.zero = false ∧ s.flags.group = false ∧ s.flags.plus = false ∧ s.flags.paren = false

theorem exists_integer_iff {c : Conversion} {v : Value} : (∃ n, integer c v = .ok n) ↔ ∃ n, v = .int n := by
  cases v <;> simp [integer]

theorem exists_number_iff {c : Conversion} {v : Value} : (∃ x, number c v = .ok x) ↔ IsNumber v := by
  cases v <;> simp [number, IsNumber]

theorem exists_map_eq_ok_iff {ε α β : Type} {x : Except ε α} {f : α → β} :
    (∃ b, x.map f = .ok b) ↔ ∃ a, x = .ok a := by
  cases x <;> simp [Except.map]

theorem exists_guard_eq_ok_iff {ε α : Type} {b : Bool} {e : ε} {x : Except ε α} :
    (∃ a, (if b then .error e else x) = .ok a) ↔ (∃ a, x = .ok a) ∧ b = false := by
  cases b <;> simp

/-- A conversion gives a text exactly where the value and the flags suit it. -/
theorem exists_convert_iff {s : Specifier} {v : Value} {l : Locale} : (∃ cs, convert s v l = .ok cs) ↔ s.Suits v := by
  unfold Specifier.Suits
  cases hs : s.conversion with
  | decimal =>
    rw [convert_decimal v l hs, exists_map_eq_ok_iff]
    exact exists_integer_iff
  | hex | upperHex | octal =>
    rw [convert_bits v l (by simp [hs])]
    constructor
    · rintro ⟨cs, h⟩
      obtain ⟨n, hn, h⟩ := bind_eq_ok.1 h
      have hflags := (exists_guard_eq_ok_iff.1 ⟨cs, h⟩).2
      exact ⟨exists_integer_iff.1 ⟨n, hn⟩, by simpa [and_assoc] using hflags⟩
    · rintro ⟨⟨n, rfl⟩, hgroup, hplus, hspace, hparen⟩
      refine ⟨signed s false (bitDigits s.conversion n), ?_⟩
      simp [integer, bind, Except.bind, hgroup, hplus, hspace, hparen]
  | fixed =>
    rw [convert_fixed v l hs, exists_map_eq_ok_iff]
    exact exists_number_iff
  | scientific | upperScientific =>
    rw [convert_scientific v l (by simp [hs]), exists_guard_eq_ok_iff, exists_map_eq_ok_iff, exists_number_iff]
  | text | upperText =>
    obtain ⟨cs, h⟩ := convert_text v l (s := s) (by simp [hs])
    rw [h, exists_guard_eq_ok_iff]
    simp [and_assoc]

/-! ## Filling up -/

/-- What a text gets so that it has the width. -/
structure Fill where
  before : Nat
  /-- The number of zeros behind the sign. -/
  zeros : Nat
  after : Nat

/-- How a text of a number is filled up that has the length. -/
def Specifier.fill (s : Specifier) (length : Nat) : Fill :=
  let missing := s.width.getD 0 - length
  if s.flags.left then ⟨0, 0, missing⟩ else if s.flags.zero then ⟨0, missing, 0⟩ else ⟨missing, 0, 0⟩

theorem Specifier.fill_sum (s : Specifier) (length : Nat) :
    (s.fill length).before + (s.fill length).zeros + (s.fill length).after = s.width.getD 0 - length := by
  unfold fill
  split
  · simp
  · split <;> simp

/-- The length of a number with its sign before it is filled up. -/
def signedLength (s : Specifier) (negative : Bool) (length : Nat) : Nat :=
  (signs s.flags negative).1.length + length + (signs s.flags negative).2.length

/-- A number is filled up by its length. -/
theorem signed_eq (s : Specifier) (negative : Bool) (body : List Char) :
    let fill := s.fill (signedLength s negative body.length)
    signed s negative body = List.replicate fill.before ' ' ++ ((signs s.flags negative).1 ++
      List.replicate fill.zeros '0' ++ body ++ (signs s.flags negative).2) ++ List.replicate fill.after ' ' := by
  intro fill
  unfold signed fill Specifier.fill signedLength
  by_cases hleft : s.flags.left
  · simp [hleft, pad, Nat.add_assoc]
  · by_cases hzero : s.flags.zero <;> simp [hleft, hzero, pad, Nat.add_assoc]

theorem length_signed (s : Specifier) (negative : Bool) (body : List Char) :
    (signed s negative body).length = max (s.width.getD 0) (signedLength s negative body.length) := by
  have hsum := s.fill_sum (signedLength s negative body.length)
  rw [signed_eq]
  simp only [List.length_append, List.length_replicate]
  unfold signedLength at hsum ⊢
  omega

end Stencil.Format
