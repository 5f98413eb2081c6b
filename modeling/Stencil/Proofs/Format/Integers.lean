import Mathlib.Algebra.Group.Int.Defs
import Stencil.Proofs.Format.Conversion
import Stencil.Proofs.Format.Grouping
import Stencil.Proofs.Text.Literal

/-!
# Integers are read back

What a specifier adds to the digits of an integer can be taken away again. Spaces, plus signs and the separators
between groups are no part of a numeral (`isDecoration`), and zeros in front of a numeral do not count
(`dropFill_append`); what is left of the text is the numeral, with its minus sign or its parentheses
(`unfilled_bare_signed`). No other integer has the same numeral, so the text determines the integer.

Main statement: `convert_int_faithful`.
-/

namespace Stencil

/-! ## Numerals -/

theorem digitValue?_digitChar {d : Nat} (hd : d < 16) :
    digitValue? (digitChar d) = some d ∧ digitValue? (digitChar d).toUpper = some d := by
  have hall : ∀ d < 16, digitValue? (digitChar d) = some d ∧ digitValue? (digitChar d).toUpper = some d := by decide
  exact hall d hd

/-- A digit is a letter or a decimal digit, and no other digit is written like zero. -/
theorem isAlphanum_digitChar {d : Nat} (hd : d < 16) :
    ((digitChar d).isAlphanum = true ∧ (digitChar d = '0' → d = 0)) ∧
    (digitChar d).toUpper.isAlphanum = true ∧ ((digitChar d).toUpper = '0' → d = 0) := by
  have hall : ∀ d < 16, ((digitChar d).isAlphanum = true ∧ (digitChar d = '0' → d = 0)) ∧
      (digitChar d).toUpper.isAlphanum = true ∧ ((digitChar d).toUpper = '0' → d = 0) := by decide
  exact hall d hd

/-- The first digit of a positive number is not zero. -/
theorem head_digits_go {base n : Nat} (hbase : 2 ≤ base) (hn : 0 < n) (found : List Nat) :
    (digits.go base n found).head? ≠ some 0 := by
  induction n using Nat.strongRecOn generalizing found with
  | ind n ih =>
    rw [digits.go]
    split
    · simp; omega
    · next hlarge =>
      have hquotient : 0 < n / base := Nat.div_pos (by omega) (by omega)
      exact ih _ (Nat.div_lt_self hn (by omega)) hquotient _

theorem digits_of_head_eq_zero {base n : Nat} (hbase : 2 ≤ base) (h : (digits base n).head? = some 0) :
    digits base n = [0] := by
  rcases Nat.eq_zero_or_pos n with rfl | hn
  · rw [digits, digits.go, dif_pos (.inl (by omega))]
  · exact absurd h (head_digits_go hbase hn [])

/-- Characters that make up a numeral: letters and digits, with a zero in front only if it stands alone. -/
structure IsNumeral (cs : List Char) : Prop where
  ne_nil : cs ≠ []
  alphanum : ∀ c ∈ cs, c.isAlphanum = true
  head : cs.head? = some '0' → cs = ['0']

theorem foldlM_eq_some {α β : Type} {f : β → α → Option β} {g : β → α → β} {xs : List α} {b : β}
    (h : ∀ b, ∀ a ∈ xs, f b a = some (g b a)) : xs.foldlM f b = some (xs.foldl g b) := by
  induction xs generalizing b with
  | nil => rfl
  | cons a xs ih =>
    rw [List.foldlM_cons, h b a List.mem_cons_self, List.foldl_cons]
    exact ih fun b' a' ha' => h b' a' (List.mem_cons_of_mem _ ha')

section
variable {base : Nat} (hbase : 2 ≤ base) (hsixteen : base ≤ 16) {write : Nat → Char}
include hbase hsixteen

theorem isNumeral_map_digits (hwrite : ∀ d < 16, (write d).isAlphanum = true ∧ (write d = '0' → d = 0))
    (hzero : write 0 = '0') (n : Nat) : IsNumeral ((digits base n).map write) where
  ne_nil := fun h => digits_go_ne_nil base n [] (List.map_eq_nil_iff.1 h)
  alphanum := by
    intro c hc
    obtain ⟨d, hd, rfl⟩ := List.mem_map.1 hc
    have := digits_go_lt hbase n (List.forall_mem_nil _) d hd
    exact (hwrite d (by omega)).1
  head := by
    intro hhead
    rw [List.head?_map, Option.map_eq_some_iff] at hhead
    obtain ⟨d, hd, hwritten⟩ := hhead
    have hlt := digits_go_lt hbase n (List.forall_mem_nil _) d (List.mem_of_mem_head? hd)
    have hd0 : d = 0 := (hwrite d (by omega)).2 hwritten
    rw [digits_of_head_eq_zero hbase (hd0 ▸ hd), List.map_singleton, hzero]

theorem numeralValue?_map_digits (hwrite : ∀ d < 16, digitValue? (write d) = some d) (n : Nat) :
    numeralValue? base ((digits base n).map write) = some n := by
  have hdigits := digits_go_lt hbase n (List.forall_mem_nil _)
  rw [numeralValue?, List.foldlM_map, foldlM_eq_some fun value d hd => ?_, digits, foldl_digits_go hbase]
  · rfl
  · have hlt : d < base := hdigits d hd
    simp [hwrite d (by omega), hlt]

end

theorem isNumeral_numeral {base : Nat} (hbase : 2 ≤ base) (hsixteen : base ≤ 16) (n : Nat) :
    IsNumeral (numeral base n) :=
  isNumeral_map_digits hbase hsixteen (fun _ hd => (isAlphanum_digitChar hd).1) rfl n

theorem isNumeral_toUpper_numeral {base : Nat} (hbase : 2 ≤ base) (hsixteen : base ≤ 16) (n : Nat) :
    IsNumeral ((numeral base n).map Char.toUpper) := by
  rw [numeral, List.map_map]
  exact isNumeral_map_digits hbase hsixteen (fun _ hd => (isAlphanum_digitChar hd).2) rfl n

theorem numeralValue?_numeral {base : Nat} (hbase : 2 ≤ base) (hsixteen : base ≤ 16) (n : Nat) :
    numeralValue? base (numeral base n) = some n :=
  numeralValue?_map_digits hbase hsixteen (fun _ hd => (digitValue?_digitChar hd).1) n

theorem numeralValue?_toUpper_numeral {base : Nat} (hbase : 2 ≤ base) (hsixteen : base ≤ 16) (n : Nat) :
    numeralValue? base ((numeral base n).map Char.toUpper) = some n := by
  rw [numeral, List.map_map]
  exact numeralValue?_map_digits hbase hsixteen (fun _ hd => (digitValue?_digitChar hd).2) n

namespace Format

/-! ## What is taken away -/

/-- Whether a character is no part of a numeral: a space, a plus sign, or the separator of groups where the specifier
asks for groups. -/
def isDecoration (s : Specifier) (l : Locale) (c : Char) : Bool :=
  c == ' ' || c == '+' || (s.flags.group && l.grouping == some c)

/-- The text without spaces, plus signs and separators of groups. -/
def bare (s : Specifier) (l : Locale) (cs : List Char) : List Char :=
  cs.filter fun c => !isDecoration s l c

/-- The text without the zeros in front of a numeral. A zero behind which nothing but a parenthesis stands is the
numeral. -/
def dropFill : List Char → List Char
  | '0' :: c :: cs => if c == ')' then '0' :: c :: cs else dropFill (c :: cs)
  | cs => cs

/-- The text without the zeros between a sign and a numeral. -/
def unfilled : List Char → List Char
  | '-' :: cs => '-' :: dropFill cs
  | '(' :: cs => '(' :: dropFill cs
  | cs => dropFill cs

theorem dropFill_of_ne {c : Char} (hc : c ≠ '0') (cs : List Char) : dropFill (c :: cs) = c :: cs := by
  unfold dropFill
  split
  · next h => exact absurd (List.cons.inj h).1 hc
  · rfl

theorem dropFill_zero_cons {c : Char} (hc : c ≠ ')') (cs : List Char) :
    dropFill ('0' :: c :: cs) = dropFill (c :: cs) := by
  rw [dropFill, if_neg (by simpa using hc)]

theorem ne_of_isAlphanum {c : Char} (hc : c.isAlphanum = true) :
    c ≠ ' ' ∧ c ≠ '+' ∧ c ≠ '-' ∧ c ≠ '(' ∧ c ≠ ')' := by
  refine ⟨?_, ?_, ?_, ?_, ?_⟩ <;> (rintro rfl; revert hc; decide)

/-- Zeros in front of a numeral do not count, also in parentheses. -/
theorem dropFill_append {ds : List Char} (hds : IsNumeral ds) (zeros : Nat) {close : List Char}
    (hclose : close = [] ∨ close = [')']) : dropFill (List.replicate zeros '0' ++ (ds ++ close)) = ds ++ close := by
  obtain ⟨hne, halphanum, hhead⟩ := hds
  obtain ⟨c, cs, rfl⟩ := List.exists_cons_of_ne_nil hne
  have hc := (ne_of_isAlphanum (halphanum c List.mem_cons_self)).2.2.2.2
  induction zeros with
  | zero =>
    by_cases hzero : c = '0'
    · subst hzero
      cases hhead rfl
      rcases hclose with rfl | rfl <;> rfl
    · exact dropFill_of_ne hzero _
  | succ zeros ih =>
    cases zeros with
    | zero => exact (dropFill_zero_cons hc _).trans ih
    | succ zeros => exact (dropFill_zero_cons (by decide) _).trans ih

theorem unfilled_eq_dropFill {cs : List Char} (h : ∀ c ∈ cs.head?, c ≠ '-' ∧ c ≠ '(') : unfilled cs = dropFill cs := by
  unfold unfilled
  split
  · exact absurd rfl (h '-' rfl).1
  · exact absurd rfl (h '(' rfl).2
  · rfl

theorem unfilled_append {ds : List Char} (hds : IsNumeral ds) (zeros : Nat) :
    unfilled (List.replicate zeros '0' ++ ds) = ds := by
  rw [unfilled_eq_dropFill]
  · simpa using dropFill_append hds zeros (.inl rfl)
  · intro c hc
    rcases List.mem_append.1 (List.mem_of_mem_head? hc) with hc | hc
    · rw [List.eq_of_mem_replicate hc]
      decide
    · obtain ⟨-, -, hminus, hopen, -⟩ := ne_of_isAlphanum (hds.alphanum c hc)
      exact ⟨hminus, hopen⟩

section
variable {s : Specifier} {l : Locale}

theorem bare_append (cs ds : List Char) : bare s l (cs ++ ds) = bare s l cs ++ bare s l ds :=
  List.filter_append ..

theorem bare_eq_self {cs : List Char} (h : ∀ c ∈ cs, isDecoration s l c = false) : bare s l cs = cs :=
  List.filter_eq_self.2 fun c hc => by rw [h c hc]; rfl

theorem bare_spaces (n : Nat) : bare s l (List.replicate n ' ') = [] := by
  simp [bare, isDecoration]

theorem bare_intercalate {separator : Char} (h : isDecoration s l separator = true) (gs : List (List Char)) :
    bare s l ([separator].intercalate gs) = bare s l gs.flatten := by
  induction gs with
  | nil => rfl
  | cons g gs ih =>
    cases gs with
    | nil => simp
    | cons g' gs =>
      rw [List.intercalate_cons_cons, List.flatten_cons, bare_append, bare_append, bare_append, ih]
      simp [bare, h]

variable (hl : ∀ c ∈ l.grouping, c.isDigit = false ∧ c ∉ ['+', '-', '(', ')'])
include hl

theorem isDecoration_of_isDigit {c : Char} (hc : c.isDigit = true) : isDecoration s l c = false := by
  obtain ⟨hspace, hplus, -⟩ := ne_of_isAlphanum (c := c) (by simp [Char.isAlphanum, hc])
  have hseparator : l.grouping ≠ some c := by
    intro hg
    rw [(hl c hg).1] at hc
    cases hc
  simp [isDecoration, hspace, hplus, hseparator]

theorem isDecoration_of_mem_signs {c : Char} (hc : c ∈ ['-', '(', ')']) : isDecoration s l c = false := by
  have hseparator : l.grouping ≠ some c := fun hg => (hl c hg).2 (List.mem_cons_of_mem _ hc)
  have hne : c ≠ ' ' ∧ c ≠ '+' := by
    constructor <;> (rintro rfl; revert hc; decide)
  simp [isDecoration, hne, hseparator]

/-- Without the separators, digits that are set apart are the digits. -/
theorem bare_grouped {ds : List Char} (hds : ∀ c ∈ ds, c.isDigit = true) : bare s l (grouped s l ds) = ds := by
  have hself : bare s l ds = ds := bare_eq_self fun c hc => isDecoration_of_isDigit hl (hds c hc)
  cases hs : s.flags.group with
  | false => rw [grouped_eq_self (.inl hs), hself]
  | true =>
    cases hg : l.grouping with
    | none => rw [grouped_eq_self (.inr hg), hself]
    | some separator =>
      rw [grouped_of_group hs hg, bare_intercalate (by simp [isDecoration, hs, hg]), flatten_groups, hself]

/-- What is left of a number is its numeral, with a minus sign or in parentheses if it is negative. -/
theorem unfilled_bare_signed (negative : Bool) {body ds : List Char} (hbody : bare s l body = ds) (hds : IsNumeral ds) :
    unfilled (bare s l (signed s negative body)) =
      if negative then (if s.flags.paren then '(' :: (ds ++ [')']) else '-' :: ds) else ds := by
  have hzeros (n : Nat) : bare s l (List.replicate n '0') = List.replicate n '0' := by
    refine bare_eq_self fun c hc => ?_
    rw [List.eq_of_mem_replicate hc]
    exact isDecoration_of_isDigit hl rfl
  have hsign (c : Char) (hc : c ∈ ['-', '(', ')']) : bare s l [c] = [c] := by
    simp [bare, isDecoration_of_mem_signs hl hc]
  rw [signed_eq]
  simp only [bare_append, bare_spaces, hzeros, hbody, List.nil_append, List.append_nil, List.append_assoc]
  cases negative with
  | false =>
    -- A plus sign or a space in its place is taken away.
    have hplus : bare s l (signs s.flags false).1 = [] := by
      unfold signs
      cases s.flags.plus <;> cases s.flags.space <;> simp [bare, isDecoration]
    have hnone : (signs s.flags false).2 = [] := by
      unfold signs
      cases s.flags.plus <;> cases s.flags.space <;> rfl
    rw [hplus, hnone]
    simpa [bare] using unfilled_append hds _
  | true =>
    cases hparen : s.flags.paren with
    | false =>
      have hsigns : signs s.flags true = (['-'], []) := by simp [signs, hparen]
      rw [hsigns, hsign '-' (by decide)]
      simpa [bare, unfilled] using dropFill_append hds _ (.inl rfl)
    | true =>
      have hsigns : signs s.flags true = (['('], [')']) := by simp [signs, hparen]
      rw [hsigns, hsign '(' (by decide), hsign ')' (by decide)]
      simpa [unfilled] using dropFill_append hds _ (.inr rfl)

end

/-! ## Integers -/

/-- The numeral of an integer with a minus sign, or in parentheses, if it is negative. -/
def signedNumeral (paren : Bool) (n : Int) : List Char :=
  if n < 0 then (if paren then '(' :: (numeral 10 n.natAbs ++ [')']) else '-' :: numeral 10 n.natAbs)
  else numeral 10 n.natAbs

/-- What a specifier writes of an integer apart from what it fills up and sets apart with. -/
def plainInteger (s : Specifier) (n : Int) : List Char :=
  match s.conversion with
  | .hex => numeral 16 (n % 2 ^ 64).toNat
  | .upperHex => (numeral 16 (n % 2 ^ 64).toNat).map Char.toUpper
  | .octal => numeral 8 (n % 2 ^ 64).toNat
  | _ => signedNumeral s.flags.paren n

theorem natAbs_of_numeral_eq {n m : Int} (h : numeral 10 n.natAbs = numeral 10 m.natAbs) : n.natAbs = m.natAbs := by
  rw [← decimalValue_numeral n.natAbs, h, decimalValue_numeral]

/-- A numeral does not begin like a negative one. -/
theorem numeral_ne_cons {c : Char} (hc : c = '-' ∨ c = '(') (n : Nat) (cs : List Char) : numeral 10 n ≠ c :: cs := by
  intro h
  have hdigit : c.isDigit = true := isDigit_of_mem_numeral (h ▸ List.mem_cons_self)
  rcases hc with rfl | rfl <;> simp at hdigit

theorem signedNumeral_of_neg (paren : Bool) {n : Int} (hn : n < 0) :
    signedNumeral paren n =
      (if paren then '(' else '-') :: (numeral 10 n.natAbs ++ if paren then [')'] else []) := by
  cases paren <;> simp [signedNumeral, hn]

theorem signedNumeral_of_nonneg (paren : Bool) {n : Int} (hn : 0 ≤ n) :
    signedNumeral paren n = numeral 10 n.natAbs :=
  if_neg (Int.not_lt.2 hn)

theorem signedNumeral_inj {paren : Bool} {n m : Int} (h : signedNumeral paren n = signedNumeral paren m) : n = m := by
  have hsign : (if paren then '(' else '-') = '-' ∨ (if paren then '(' else '-') = '(' := by
    cases paren <;> simp
  rcases Int.lt_or_le n 0 with hn | hn <;> rcases Int.lt_or_le m 0 with hm | hm
  · rw [signedNumeral_of_neg paren hn, signedNumeral_of_neg paren hm] at h
    have := natAbs_of_numeral_eq (List.append_cancel_right (List.cons.inj h).2)
    omega
  · rw [signedNumeral_of_neg paren hn, signedNumeral_of_nonneg paren hm] at h
    exact absurd h.symm (numeral_ne_cons hsign _ _)
  · rw [signedNumeral_of_nonneg paren hn, signedNumeral_of_neg paren hm] at h
    exact absurd h (numeral_ne_cons hsign _ _)
  · rw [signedNumeral_of_nonneg paren hn, signedNumeral_of_nonneg paren hm] at h
    have := natAbs_of_numeral_eq h
    omega

/-- The bits of an integer of 64 bits determine it. -/
theorem eq_of_toNat_emod_eq {n m : Int} (hn : -2 ^ 63 ≤ n ∧ n < 2 ^ 63) (hm : -2 ^ 63 ≤ m ∧ m < 2 ^ 63)
    (h : (n % 2 ^ 64).toNat = (m % 2 ^ 64).toNat) : n = m := by
  omega

theorem plainInteger_inj {s : Specifier} {n m : Int} (hn : -2 ^ 63 ≤ n ∧ n < 2 ^ 63) (hm : -2 ^ 63 ≤ m ∧ m < 2 ^ 63)
    (h : plainInteger s n = plainInteger s m) : n = m := by
  -- Two numerals that are equal are read as the same number.
  have hread {base : Nat} {write : Nat → List Char} (hwrite : ∀ k, numeralValue? base (write k) = some k)
      (h : write (n % 2 ^ 64).toNat = write (m % 2 ^ 64).toNat) : n = m := by
    refine eq_of_toNat_emod_eq hn hm (Option.some_inj.1 ?_)
    rw [← hwrite, h, hwrite]
  unfold plainInteger at h
  split at h
  · exact hread (numeralValue?_numeral (by decide) (by decide)) h
  · exact hread (numeralValue?_toUpper_numeral (by decide) (by decide)) h
  · exact hread (numeralValue?_numeral (by decide) (by decide)) h
  · exact signedNumeral_inj h

theorem bitDigits_eq {s : Specifier} (hs : s.conversion = .hex ∨ s.conversion = .upperHex ∨ s.conversion = .octal)
    (n : Int) : bitDigits s.conversion n = plainInteger s n ∧ IsNumeral (plainInteger s n) := by
  unfold plainInteger
  rcases hs with hs | hs | hs
  · rw [hs]
    exact ⟨rfl, isNumeral_numeral (by decide) (by decide) _⟩
  · rw [hs]
    exact ⟨rfl, isNumeral_toUpper_numeral (by decide) (by decide) _⟩
  · rw [hs]
    exact ⟨rfl, isNumeral_numeral (by decide) (by decide) _⟩

/-- An integer is written as a number of which its plain form is left. -/
theorem convert_int_eq {s : Specifier} {l : Locale}
    (hl : ∀ c ∈ l.grouping, c.isDigit = false ∧ c ∉ ['+', '-', '(', ')'])
    (hs : s.conversion ∈ [.decimal, .hex, .upperHex, .octal]) {n : Int} (hsuits : s.Suits (.int n)) :
    ∃ negative body, (∀ width, convert { s with width } (.int n) l = .ok (signed { s with width } negative body)) ∧
      unfilled (bare s l (signed s negative body)) = plainInteger s n := by
  have hs : s.conversion = .decimal ∨ s.conversion = .hex ∨ s.conversion = .upperHex ∨ s.conversion = .octal := by
    simpa using hs
  rcases hs with hs | hs
  · refine ⟨n < 0, grouped s l (numeral 10 n.natAbs), fun width => convert_decimal (s := { s with width }) _ _ hs, ?_⟩
    rw [unfilled_bare_signed hl _ (bare_grouped hl fun c hc => isDigit_of_mem_numeral hc)
      (isNumeral_numeral (by decide) (by decide) _), plainInteger, hs]
    simp only [decide_eq_true_eq]
    rfl
  · obtain ⟨hdigits, hnumeral⟩ := bitDigits_eq hs n
    obtain ⟨-, hgroup, hplus, hspace, hparen⟩ : (∃ m, Value.int n = .int m) ∧ s.flags.group = false ∧
        s.flags.plus = false ∧ s.flags.space = false ∧ s.flags.paren = false := by
      unfold Specifier.Suits at hsuits
      rcases hs with hs | hs | hs <;> simpa only [hs] using hsuits
    refine ⟨false, plainInteger s n, fun width => ?_, ?_⟩
    · rw [convert_bits (s := { s with width }) _ _ hs, ← hdigits]
      simp [integer, bind, Except.bind, hgroup, hplus, hspace, hparen]
    · have hbare : bare s l (plainInteger s n) = plainInteger s n := by
        refine bare_eq_self fun c hc => ?_
        obtain ⟨hblank, hsign, -⟩ := ne_of_isAlphanum (hnumeral.alphanum c hc)
        simp [isDecoration, hblank, hsign, hgroup]
      exact unfilled_bare_signed hl false hbare hnumeral

/-- **Integers are written faithfully.** A conversion to decimal digits, or to the bits of an integer in hexadecimal
or octal, writes every integer of 64 bits under all flags that it allows. The text is as long as the width asks for, or
as it is without a width if that is longer. Apart from spaces, plus signs, separators of groups and zeros in front it
is the numeral of the integer's magnitude, which has a minus sign or parentheses exactly if the integer is negative,
or else the numeral of its bits; and no other integer has the text. -/
theorem convert_int_faithful {s : Specifier} {l : Locale}
    (hl : ∀ c ∈ l.grouping, c.isDigit = false ∧ c ∉ ['+', '-', '(', ')'])
    (hs : s.conversion ∈ [.decimal, .hex, .upperHex, .octal]) {n : Int} (hn : -2 ^ 63 ≤ n ∧ n < 2 ^ 63)
    (hsuits : s.Suits (.int n)) :
    ∃ text plain, convert s (.int n) l = .ok text ∧ convert { s with width := none } (.int n) l = .ok plain ∧
      text.length = max (s.width.getD 0) plain.length ∧ unfilled (bare s l text) = plainInteger s n ∧
      ∀ m, -2 ^ 63 ≤ m ∧ m < 2 ^ 63 → convert s (.int m) l = .ok text → m = n := by
  obtain ⟨negative, body, hconvert, hplain⟩ := convert_int_eq hl hs hsuits
  refine ⟨_, _, hconvert s.width, hconvert none, ?_, hplain, fun m hm htext => ?_⟩
  · rw [length_signed, length_signed]
    simp [signedLength]
  · have hsuits : s.Suits (.int m) := exists_convert_iff.1 ⟨_, htext⟩
    obtain ⟨negative', body', hconvert', hplain'⟩ := convert_int_eq hl hs hsuits
    rw [hconvert' s.width, Except.ok.injEq] at htext
    refine plainInteger_inj (s := s) hm hn ?_
    rw [← hplain, ← hplain']
    exact congrArg (fun text => unfilled (bare s l text)) htext

/-- The least integer, in groups and parentheses and with zeros in front of its digits. -/
theorem convert_int_faithful_least :
    let s : Specifier :=
      { flags := { zero := true, group := true, paren := true }, width := some 30, conversion := .decimal }
    ∃ text, convert s (.int (-2 ^ 63)) .root = .ok text ∧ text = "(0009,223,372,036,854,775,808)".toList ∧
      unfilled (bare s .root text) = "(9223372036854775808)".toList := by
  intro s
  have hroot : ∀ c ∈ Locale.root.grouping, c.isDigit = false ∧ c ∉ ['+', '-', '(', ')'] := by
    rintro _ ⟨⟩
    decide
  obtain ⟨text, _, htext, -, -, hplain, -⟩ := convert_int_faithful (s := s) hroot (by decide)
    (n := -2 ^ 63) (by decide) ⟨_, rfl⟩
  have hresult : convert s (.int (-2 ^ 63)) .root = .ok "(0009,223,372,036,854,775,808)".toList :=
    eq_ok_of_toOption (by decide +kernel)
  refine ⟨text, htext, ?_, hplain.trans (by decide +kernel)⟩
  rw [hresult] at htext
  exact (Except.ok.inj htext).symm

end Format

end Stencil
