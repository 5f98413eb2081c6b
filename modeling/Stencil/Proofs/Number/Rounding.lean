import Mathlib.Data.Nat.Digits.Defs
import Mathlib.Data.Rat.Floor
import Mathlib.Tactic.FieldSimp
import Mathlib.Tactic.Linarith
import Mathlib.Tactic.Positivity
import Mathlib.Tactic.Ring
import Stencil.Format.Conversion
import Stencil.Proofs.Text.Literal

/-!
# Rounding to fixed places

A decimal is cut behind the last place that is kept; the digits behind it say whether the ones that are kept go up
by a unit (`Decimal.exists_remainder`). Adding a unit is adding one, and a carry out of the first digit becomes a
digit of its own (`Decimal.increment_spec`). So the digits that come out stand for the number of units of the
last place nearest to the decimal, a half upwards; those before the point are a numeral, and the others are exactly
as many as there are places. Main statement: `Decimal.roundHalfUp_eq_floor`.
-/

namespace Stencil

/-! ## Digits as a number -/

/-- The number that digits stand for, most significant first. -/
def digitsValue (ds : List Nat) : Nat :=
  Nat.ofDigits 10 ds.reverse

theorem digitsValue_cons (d : Nat) (ds : List Nat) : digitsValue (d :: ds) = digitsValue ds + 10 ^ ds.length * d :=
  Nat.ofDigits_reverse_cons ds d

theorem digitsValue_zero_cons (ds : List Nat) : digitsValue (0 :: ds) = digitsValue ds := by
  rw [digitsValue_cons, Nat.mul_zero, Nat.add_zero]

theorem digitsValue_append (ds es : List Nat) :
    digitsValue (ds ++ es) = digitsValue ds * 10 ^ es.length + digitsValue es := by
  rw [digitsValue, List.reverse_append, Nat.ofDigits_append, List.length_reverse, Nat.mul_comm, Nat.add_comm]
  rfl

theorem digitsValue_replicate_zero (n : Nat) : digitsValue (List.replicate n 0) = 0 := by
  rw [digitsValue, List.reverse_replicate, Nat.ofDigits_replicate_zero]

theorem digitsValue_lt {ds : List Nat} (hds : ∀ d ∈ ds, d < 10) : digitsValue ds < 10 ^ ds.length := by
  rw [← List.length_reverse]
  exact Nat.ofDigits_lt_base_pow_length (by decide) fun d hd => hds d (List.mem_reverse.1 hd)

/-- The first digit tells whether digits behind a point come to at least a half. -/
theorem five_le_iff (d : Nat) {ds : List Nat} (hds : ∀ x ∈ ds, x < 10) :
    5 ≤ d ↔ 10 ^ (ds.length + 1) ≤ 2 * digitsValue (d :: ds) := by
  have hrest := digitsValue_lt hds
  rw [digitsValue_cons, Nat.pow_succ]
  constructor
  · intro hfive
    have := Nat.mul_le_mul_left (10 ^ ds.length) hfive
    omega
  · intro hhalf
    by_contra hfour
    have := Nat.mul_le_mul_left (10 ^ ds.length) (show d ≤ 4 by omega)
    omega

theorem digits_go_eq_reverse (n : Nat) (hn : 0 < n) (found : List Nat) :
    digits.go 10 n found = (Nat.digits 10 n).reverse ++ found := by
  induction n using Nat.strongRecOn generalizing found with
  | ind n ih =>
    rw [digits.go]
    split
    · rw [Nat.digits_of_lt 10 n (by omega) (by omega)]
      rfl
    · rw [ih (n / 10) (by omega) (by omega), Nat.digits_def' (by decide) hn, List.reverse_cons, List.append_assoc]
      rfl

/-- Digits without a zero in front are those of their number. -/
theorem digits_digitsValue {d : Nat} {ds : List Nat} (hds : ∀ x ∈ d :: ds, x < 10) (hd : d ≠ 0) :
    digits 10 (digitsValue (d :: ds)) = d :: ds := by
  have hpos : 0 < digitsValue (d :: ds) := by
    rw [digitsValue_cons]
    have hunit : 0 < 10 ^ ds.length * d := Nat.mul_pos (by positivity) (by omega)
    omega
  have hlast : ∀ h : (d :: ds).reverse ≠ [], (d :: ds).reverse.getLast h ≠ 0 := by
    intro h
    rw [List.getLast_reverse]
    exact hd
  rw [digits, digits_go_eq_reverse _ hpos, digitsValue,
    Nat.digits_ofDigits 10 (by decide) _ (fun x hx => hds x (List.mem_reverse.1 hx)) hlast, List.reverse_reverse,
    List.append_nil]

namespace Decimal

theorem trimZeros_zero_cons (ds : List Nat) : trimZeros (0 :: ds) = trimZeros ds := rfl

theorem trimZeros_of_ne_zero {d : Nat} (hd : d ≠ 0) (ds : List Nat) : trimZeros (d :: ds) = d :: ds := by
  rw [trimZeros, List.dropWhile_cons_of_neg (by simpa using hd)]

/-- Without the zeros in front, digits are those of their number. -/
theorem trimZeros_eq_digits {ds : List Nat} (hds : ∀ d ∈ ds, d < 10) :
    trimZeros ds = Stencil.digits 10 (digitsValue ds) := by
  induction ds with
  | nil => simp [trimZeros, digitsValue, Stencil.digits, digits.go]
  | cons d ds ih =>
    by_cases hd : d = 0
    · subst hd
      rw [trimZeros_zero_cons, digitsValue_zero_cons]
      exact ih (List.forall_mem_cons.1 hds).2
    · rw [trimZeros_of_ne_zero hd, digits_digitsValue hds hd]

/-- The only zero in front that is left is that of a zero. -/
theorem trimZeros_eq_of_head {ds : List Nat} (h : (trimZeros ds).head? = some 0) : trimZeros ds = [0] := by
  induction ds with
  | nil => rfl
  | cons d ds ih =>
    by_cases hd : d = 0
    · subst hd
      exact ih h
    · rw [trimZeros_of_ne_zero hd, List.head?_cons, Option.some_inj] at h
      exact absurd h hd

/-! ## Adding a unit -/

/-- Adds a unit in the last place, with a digit for the carry. -/
def increment (ds : List Nat) : List Nat :=
  match addUnit ds with
  | (true, ds') => 1 :: ds'
  | (false, ds') => ds'

/-- A unit is one more; what overflows is a unit in front of the digits. -/
theorem addUnit_spec {ds : List Nat} (hds : ∀ d ∈ ds, d < 10) :
    (addUnit ds).2.length = ds.length ∧ (∀ d ∈ (addUnit ds).2, d < 10) ∧
    digitsValue (addUnit ds).2 + (if (addUnit ds).1 then 10 ^ ds.length else 0) = digitsValue ds + 1 := by
  induction ds with
  | nil => exact ⟨rfl, List.forall_mem_nil _, rfl⟩
  | cons d ds ih =>
    obtain ⟨hd, hds⟩ := List.forall_mem_cons.1 hds
    obtain ⟨hlength, hdigits, hvalue⟩ := ih hds
    rw [addUnit]
    rcases haddUnit : addUnit ds with ⟨_ | _, es⟩
    all_goals rw [haddUnit] at hlength hdigits hvalue
    · simp only [Bool.false_eq_true, if_false] at hvalue ⊢
      refine ⟨by simp [hlength], List.forall_mem_cons.2 ⟨hd, hdigits⟩, ?_⟩
      rw [digitsValue_cons, digitsValue_cons, hlength]
      omega
    · simp only [if_true] at hvalue
      by_cases hnine : d = 9
      · simp only [if_pos hnine, if_true]
        refine ⟨by simp [hlength], List.forall_mem_cons.2 ⟨by decide, hdigits⟩, ?_⟩
        rw [digitsValue_zero_cons, digitsValue_cons, List.length_cons, Nat.pow_succ, hnine]
        omega
      · simp only [if_neg hnine, Bool.false_eq_true, if_false]
        refine ⟨by simp [hlength], List.forall_mem_cons.2 ⟨by omega, hdigits⟩, ?_⟩
        rw [digitsValue_cons, digitsValue_cons, hlength, Nat.mul_succ]
        omega

theorem increment_spec {ds : List Nat} (hds : ∀ d ∈ ds, d < 10) :
    (∃ carry ≤ 1, (increment ds).length = carry + ds.length) ∧ (∀ d ∈ increment ds, d < 10) ∧
    digitsValue (increment ds) = digitsValue ds + 1 := by
  obtain ⟨hlength, hdigits, hvalue⟩ := addUnit_spec hds
  rw [increment]
  rcases haddUnit : addUnit ds with ⟨_ | _, es⟩
  all_goals rw [haddUnit] at hlength hdigits hvalue
  · exact ⟨⟨0, Nat.zero_le 1, by rw [hlength, Nat.zero_add]⟩, hdigits, hvalue⟩
  · refine ⟨⟨1, Nat.le_refl 1, by rw [List.length_cons, hlength, Nat.add_comm]⟩,
      List.forall_mem_cons.2 ⟨by decide, hdigits⟩, ?_⟩
    rw [digitsValue_cons, hlength, Nat.mul_one]
    exact hvalue

/-! ## Where a decimal is cut -/

/-- A part of a unit that is at least half of it counts as one. -/
theorem floor_add_half (n : Nat) {rest unit : Nat} (h : rest < unit) :
    ⌊(n : ℚ) + (rest : ℚ) / unit + 1 / 2⌋₊ = n + if unit ≤ 2 * rest then 1 else 0 := by
  have hunit : (0 : ℚ) < unit := by exact_mod_cast Nat.zero_lt_of_lt h
  have hpart : (0 : ℚ) ≤ (rest : ℚ) / unit := by positivity
  have hone : (rest : ℚ) / unit < 1 := by
    rw [div_lt_one hunit]
    exact_mod_cast h
  rw [Nat.floor_eq_iff (by positivity)]
  split
  · next hhalf =>
    have hhalf : (1 : ℚ) / 2 ≤ rest / unit := by
      have : (unit : ℚ) ≤ 2 * rest := by exact_mod_cast hhalf
      rw [le_div_iff₀ hunit]
      linarith
    push_cast
    constructor <;> linarith
  · next hhalf =>
    have hhalf : (rest : ℚ) / unit < 1 / 2 := by
      have : 2 * (rest : ℚ) < unit := by exact_mod_cast Nat.lt_of_not_le hhalf
      rw [div_lt_iff₀ hunit]
      linarith
    push_cast
    constructor <;> linarith

/-- The number that a decimal is. -/
def value (d : Decimal) : ℚ :=
  digitsValue d.digits * 10 ^ (d.point - d.digits.length)

/-- The number of digits before the point once there is at least one. -/
def units (d : Decimal) : Nat :=
  (max d.point 1).toNat

def kept (d : Decimal) (places : Nat) : List Nat :=
  d.withUnits.take (d.units + places) ++ List.replicate (d.units + places - d.withUnits.length) 0

def next (d : Decimal) (places : Nat) : Nat :=
  (d.withUnits[d.units + places]?).getD 0

def rounded (d : Decimal) (places : Nat) : List Nat :=
  if 5 ≤ d.next places then increment (d.kept places) else d.kept places

theorem roundHalfUp_eq (d : Decimal) (places : Nat) :
    let n := (d.rounded places).length - places
    d.roundHalfUp places = (trimZeros ((d.rounded places).take n), (d.rounded places).drop n) := by
  rfl

section
variable (d : Decimal) (places : Nat)

theorem length_kept : (d.kept places).length = d.units + places := by
  rw [kept, List.length_append, List.length_take, List.length_replicate]
  omega

/-- A decimal that is not cut gets zeros. -/
theorem kept_of_length_le (h : d.withUnits.length ≤ d.units + places) :
    d.kept places = d.withUnits ++ List.replicate (d.units + places - d.withUnits.length) 0 ∧ d.next places = 0 := by
  rw [kept, next, List.take_of_length_le h, List.getElem?_eq_none h]
  exact ⟨rfl, rfl⟩

/-- A decimal that is cut has a digit behind the last place. -/
theorem exists_kept_append (h : d.units + places < d.withUnits.length) :
    ∃ rest, d.withUnits = d.kept places ++ d.next places :: rest := by
  refine ⟨d.withUnits.drop (d.units + places + 1), ?_⟩
  rw [kept, next, List.getElem?_eq_getElem h, Nat.sub_eq_zero_of_le (Nat.le_of_lt h), List.replicate_zero,
    List.append_nil, Option.getD_some, ← List.drop_eq_getElem_cons h, List.take_append_drop]

/-- A decimal in units of the last place. -/
theorem value_mul_pow : d.value * 10 ^ places =
    digitsValue d.withUnits * (10 : ℚ) ^ ((d.kept places).length - d.withUnits.length : ℤ) := by
  have hvalue : digitsValue d.withUnits = digitsValue d.digits := by
    rw [withUnits, digitsValue_append, digitsValue_replicate_zero, Nat.zero_mul, Nat.zero_add]
  have hexponent : ((d.kept places).length - d.withUnits.length : ℤ) = d.point - d.digits.length + places := by
    rw [length_kept, withUnits, List.length_append, List.length_replicate, units]
    omega
  rw [value, hvalue, hexponent, zpow_add₀ (by norm_num), zpow_natCast, mul_assoc]

end

section
variable {d : Decimal} (hd : ∀ x ∈ d.digits, x < 10) (places : Nat)
include hd

theorem withUnits_lt : ∀ x ∈ d.withUnits, x < 10 := by
  refine List.forall_mem_append.2 ⟨fun x hx => ?_, hd⟩
  rw [List.eq_of_mem_replicate hx]
  decide

theorem kept_lt : ∀ x ∈ d.kept places, x < 10 := by
  refine List.forall_mem_append.2 ⟨fun x hx => withUnits_lt hd x (List.mem_of_mem_take hx), fun x hx => ?_⟩
  rw [List.eq_of_mem_replicate hx]
  decide

/-- What is cut off is less than a unit of the last place, and the digit behind that place tells whether it is at
least half of one. -/
theorem exists_remainder : ∃ rest unit : Nat, rest < unit ∧
    d.value * 10 ^ places = digitsValue (d.kept places) + (rest : ℚ) / unit ∧
    (5 ≤ d.next places ↔ unit ≤ 2 * rest) := by
  rw [value_mul_pow]
  by_cases hshort : d.withUnits.length ≤ d.units + places
  · obtain ⟨hkept, hnext⟩ := kept_of_length_le d places hshort
    refine ⟨0, 1, Nat.zero_lt_one, ?_, by rw [hnext]; decide⟩
    rw [hkept, List.length_append, digitsValue_append, digitsValue_replicate_zero, List.length_replicate]
    push_cast
    rw [add_sub_cancel_left, zpow_natCast]
    ring
  · obtain ⟨rest, hsplit⟩ := exists_kept_append d places (Nat.lt_of_not_le hshort)
    have hcut : ∀ x ∈ d.next places :: rest, x < 10 := fun x hx =>
      withUnits_lt hd x (hsplit ▸ List.mem_append_right _ hx)
    refine ⟨digitsValue (d.next places :: rest), 10 ^ (rest.length + 1), digitsValue_lt hcut, ?_,
      five_le_iff _ (List.forall_mem_cons.1 hcut).2⟩
    have hexponent : ((d.kept places).length - d.withUnits.length : ℤ) = -((rest.length + 1 : Nat) : ℤ) := by
      rw [congrArg List.length hsplit, List.length_append, List.length_cons]
      push_cast
      ring
    rw [hexponent, congrArg digitsValue hsplit, digitsValue_append, List.length_cons, zpow_neg, zpow_natCast]
    push_cast
    field_simp

/-! ## The digits after rounding -/

theorem digitsValue_rounded : digitsValue (d.rounded places) = ⌊d.value * 10 ^ places + 1 / 2⌋₊ := by
  obtain ⟨rest, unit, hrest, hvalue, hup⟩ := exists_remainder hd places
  rw [hvalue, floor_add_half _ hrest, rounded]
  by_cases h : 5 ≤ d.next places
  · rw [if_pos h, if_pos (hup.1 h), (increment_spec (kept_lt hd places)).2.2]
  · rw [if_neg h, if_neg (mt hup.2 h), Nat.add_zero]

theorem rounded_lt : ∀ x ∈ d.rounded places, x < 10 := by
  rw [rounded]
  split
  · exact (increment_spec (kept_lt hd places)).2.1
  · exact kept_lt hd places

theorem exists_length_rounded : ∃ carry ≤ 1, (d.rounded places).length = d.units + carry + places := by
  rw [rounded]
  split
  · obtain ⟨⟨carry, hcarry, hlength⟩, -⟩ := increment_spec (kept_lt hd places)
    exact ⟨carry, hcarry, by rw [hlength, length_kept]; omega⟩
  · exact ⟨0, Nat.zero_le 1, by rw [length_kept]; omega⟩

theorem length_roundHalfUp : (d.roundHalfUp places).2.length = places := by
  obtain ⟨carry, -, hlength⟩ := exists_length_rounded hd places
  rw [roundHalfUp_eq, List.length_drop]
  omega

theorem roundHalfUp_lt : ∀ x ∈ (d.roundHalfUp places).2, x < 10 := by
  rw [roundHalfUp_eq]
  exact fun x hx => rounded_lt hd places x (List.mem_of_mem_drop hx)

/-- The rounded number is cut behind its units. -/
theorem roundHalfUp_div_mod :
    let n := ⌊d.value * 10 ^ places + 1 / 2⌋₊
    (d.roundHalfUp places).1 = Stencil.digits 10 (n / 10 ^ places) ∧
    digitsValue (d.roundHalfUp places).2 = n % 10 ^ places := by
  intro n
  have hlength := length_roundHalfUp hd places
  have hlt := digitsValue_lt (roundHalfUp_lt hd places)
  rw [hlength] at hlt
  rw [roundHalfUp_eq] at hlength hlt ⊢
  have hsplit := digitsValue_append ((d.rounded places).take ((d.rounded places).length - places))
    ((d.rounded places).drop ((d.rounded places).length - places))
  rw [List.take_append_drop, digitsValue_rounded hd, hlength, Nat.mul_comm] at hsplit
  have hdivmod := (Nat.div_mod_unique (by positivity)).2 ⟨(Nat.add_comm ..).trans hsplit.symm, hlt⟩
  refine ⟨?_, hdivmod.2.symm⟩
  rw [trimZeros_eq_digits fun x hx => rounded_lt hd places x (List.mem_of_mem_take hx), ← hdivmod.1]

end

/-- **Fixed places are rounded exactly, a half upwards.** A decimal in units of the last place, plus a half and
rounded down, is the number whose digits come out: what stands before the point is the numeral of its quotient, which
has no superfluous zeros in front, and exactly as many digits as there are places make up its remainder. There is a
point just if there are places. Every cut is made inside the digits, also where a carry has added one. -/
theorem roundHalfUp_eq_floor (d : Decimal) (hd : ∀ x ∈ d.digits, x < 10) (places : Nat) :
    let n := ⌊d.value * 10 ^ places + 1 / 2⌋₊
    let whole := (d.roundHalfUp places).1
    let fraction := (d.roundHalfUp places).2
    whole.map digitChar = numeral 10 (n / 10 ^ places) ∧ (whole.head? = some 0 → whole = [0]) ∧
    fraction.length = places ∧ (∀ x ∈ fraction, x < 10) ∧ digitsValue fraction = n % 10 ^ places ∧
    (∀ l, Format.withFraction l (whole.map digitChar) (fraction.map digitChar) =
      if places = 0 then numeral 10 n
      else numeral 10 (n / 10 ^ places) ++ l.decimal :: fraction.map digitChar) ∧
    (d.kept places).length = d.units + places ∧
    ∃ carry ≤ 1, (d.rounded places).length = d.units + carry + places ∧
      whole = trimZeros ((d.rounded places).take (d.units + carry)) ∧
      fraction = (d.rounded places).drop (d.units + carry) := by
  intro n whole fraction
  obtain ⟨hwhole, hfraction⟩ := roundHalfUp_div_mod hd places
  have hnumeral : whole.map digitChar = numeral 10 (n / 10 ^ places) := congrArg (List.map digitChar) hwhole
  have hlength : fraction.length = places := length_roundHalfUp hd places
  refine ⟨hnumeral, ?_, hlength, roundHalfUp_lt hd places, hfraction, fun l => ?_, length_kept d places, ?_⟩
  · exact fun h => trimZeros_eq_of_head h
  · rw [hnumeral, Format.withFraction, List.isEmpty_map]
    by_cases hplaces : places = 0
    · have hnone : fraction = [] := List.eq_nil_of_length_eq_zero (hlength.trans hplaces)
      rw [if_pos hplaces, hnone, hplaces, Nat.pow_zero, Nat.div_one]
      rfl
    · have hsome : fraction ≠ [] := fun h => hplaces (hlength.symm.trans (congrArg List.length h))
      rw [if_neg hplaces, if_neg (by simpa using hsome)]
  · obtain ⟨carry, hcarry, hrounded⟩ := exists_length_rounded hd places
    have hcut : (d.rounded places).length - places = d.units + carry := by omega
    exact ⟨carry, hcarry, hrounded, by rw [← hcut]; rfl, by rw [← hcut]; rfl⟩

/-- A carry goes through all digits and becomes a digit of its own. -/
theorem roundHalfUp_nines :
    let d : Decimal := ⟨[9, 9, 9, 9, 6], 1⟩
    let n := ⌊d.value * 10 ^ 2 + 1 / 2⌋₊
    (∀ x ∈ d.digits, x < 10) ∧ d.roundHalfUp 2 = ([1, 0], [0, 0]) ∧
    numeral 10 (n / 10 ^ 2) = ['1', '0'] ∧ n % 10 ^ 2 = 0 ∧
    Format.withFraction .root ((d.roundHalfUp 2).1.map digitChar) ((d.roundHalfUp 2).2.map digitChar) =
      "10.00".toList := by
  intro d n
  have hd : ∀ x ∈ d.digits, x < 10 := by decide
  have hresult : d.roundHalfUp 2 = ([1, 0], [0, 0]) := by decide
  obtain ⟨hwhole, -, -, -, hfraction, -⟩ := roundHalfUp_eq_floor d hd 2
  rw [hresult] at hwhole hfraction
  exact ⟨hd, hresult, hwhole.symm, hfraction.symm, by rw [hresult]; rfl⟩

end Decimal

/-! ## Formatted numbers -/

theorem foldl_digits (ds : List Nat) (n : Nat) :
    ds.foldl (fun value d => value * 10 + d) n = n * 10 ^ ds.length + digitsValue ds := by
  induction ds generalizing n with
  | nil => simp [digitsValue]
  | cons d ds ih =>
    rw [List.foldl_cons, ih, digitsValue_cons, List.length_cons, Nat.pow_succ]
    ring

theorem decimalValue_map_digitChar {ds : List Nat} (hds : ∀ d ∈ ds, d < 10) :
    decimalValue (ds.map digitChar) = digitsValue ds := by
  rw [decimalValue, foldl_map_digitChar hds, foldl_digits, Nat.zero_mul, Nat.zero_add]

theorem Decimal.ofScaled_lt (n : Nat) (shift : Int) : ∀ x ∈ (Decimal.ofScaled n shift).digits, x < 10 := by
  intro x hx
  have hx : x ∈ (Stencil.digits 10 n).reverse :=
    (List.dropWhile_sublist _).subset (List.mem_reverse.1 hx)
  exact digits_go_lt (by decide) n (List.forall_mem_nil _) x (List.mem_reverse.1 hx)

theorem Binary64.shortest_lt (x : Binary64) : ∀ d ∈ x.shortest.digits, d < 10 := by
  have hzero : ∀ d ∈ [0], d < 10 := by decide
  unfold shortest
  split
  · exact hzero
  · split
    next p q _ =>
    generalize decimalPlace (4 * x.significand * p) q = place
    cases hfound : (List.range 17).findSome? fun (n : Nat) =>
        (x.neighbour? (place - (n + 1))).map fun c => Decimal.ofScaled c (place - (n + 1)) with
    | none => simp [hfound]
    | some found =>
      obtain ⟨n, _, hn⟩ := List.exists_of_findSome?_eq_some hfound
      obtain ⟨c, _, rfl⟩ := Option.map_eq_some_iff.1 hn
      simpa [hfound] using Decimal.ofScaled_lt c (place - (n + 1))

/-- A number is written with fixed places as the digits that its shortest decimal is rounded to. -/
theorem Format.fixed_eq_floor (s : Specifier) (l : Locale) (x : Binary64) :
    let places := s.precision.getD defaultPlaces
    let n := ⌊x.shortest.value * 10 ^ places + 1 / 2⌋₊
    ∃ fraction, fraction.length = places ∧ decimalValue fraction = n % 10 ^ places ∧
      fixed s l x = withFraction l (grouped s l (numeral 10 (n / 10 ^ places))) fraction := by
  intro places n
  obtain ⟨hwhole, hfraction⟩ := Decimal.roundHalfUp_div_mod x.shortest_lt places
  refine ⟨(x.shortest.roundHalfUp places).2.map digitChar, ?_, ?_, ?_⟩
  · rw [List.length_map, Decimal.length_roundHalfUp x.shortest_lt]
  · rw [decimalValue_map_digitChar (Decimal.roundHalfUp_lt x.shortest_lt places), hfraction]
  · exact congrArg (fun whole => withFraction l (grouped s l (whole.map digitChar)) _) hwhole

end Stencil
