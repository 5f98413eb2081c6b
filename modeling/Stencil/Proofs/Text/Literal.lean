import Mathlib.Data.List.Basic
import Stencil.Text.StringLiteral
import Stencil.Text.Word

/-!
# Numerals and literals that are read back

The numeral of a number has its value (`decimalValue_numeral`), and the literal of a text has the text as its
value (`scanLiteral_literalBody`, `unescape_literalBody`), in both dialects.
-/

namespace Stencil

/-! ## Numerals -/

section
variable {base : Nat} (hbase : 2 ≤ base)
include hbase

theorem foldl_digits_go (n : Nat) (found : List Nat) :
    (digits.go base n found).foldl (fun value d => value * base + d) 0 =
      found.foldl (fun value d => value * base + d) n := by
  induction n using Nat.strongRecOn generalizing found with
  | ind n ih =>
    rw [digits.go]
    split
    · simp
    · have hlt : n / base < n := Nat.div_lt_self (by omega) (by omega)
      rw [ih _ hlt, List.foldl_cons, Nat.div_add_mod']

theorem digits_go_lt (n : Nat) {found : List Nat} (hfound : ∀ d ∈ found, d < base) :
    ∀ d ∈ digits.go base n found, d < base := by
  induction n using Nat.strongRecOn generalizing found with
  | ind n ih =>
    rw [digits.go]
    split
    · intro d hd
      rcases List.mem_cons.1 hd with rfl | hd
      · omega
      · exact hfound d hd
    · refine ih _ (Nat.div_lt_self (by omega) (by omega)) ?_
      intro d hd
      rcases List.mem_cons.1 hd with rfl | hd
      · exact Nat.mod_lt n (by omega)
      · exact hfound d hd

end

theorem digits_go_ne_nil (base n : Nat) (found : List Nat) : digits.go base n found ≠ [] := by
  induction n using Nat.strongRecOn generalizing found with
  | ind n ih =>
    rw [digits.go]
    split
    · simp
    · exact ih _ (Nat.div_lt_self (by omega) (by omega)) _

theorem isDigit_digitChar {d : Nat} (hd : d < 10) : (digitChar d).isDigit = true := by
  have hall : ∀ d < 10, (digitChar d).isDigit = true := by decide
  exact hall d hd

theorem toNat_digitChar {d : Nat} (hd : d < 10) : (digitChar d).toNat - '0'.toNat = d := by
  have hall : ∀ d < 10, (digitChar d).toNat - '0'.toNat = d := by decide
  exact hall d hd

theorem foldl_map_digitChar {ds : List Nat} (hds : ∀ d ∈ ds, d < 10) (value : Nat) :
    (ds.map digitChar).foldl (fun n c => n * 10 + (c.toNat - '0'.toNat)) value =
      ds.foldl (fun value d => value * 10 + d) value := by
  rw [List.foldl_map]
  refine List.foldl_ext _ _ _ fun n d hd => ?_
  rw [toNat_digitChar (hds d hd)]

theorem isDigit_of_mem_numeral {n : Nat} {c : Char} (h : c ∈ numeral 10 n) : c.isDigit = true := by
  obtain ⟨d, hd, rfl⟩ := List.mem_map.1 h
  exact isDigit_digitChar (digits_go_lt (by decide) n (by simp) d hd)

theorem numeral_ne_nil (base n : Nat) : numeral base n ≠ [] := by
  rw [numeral, ne_eq, List.map_eq_nil_iff]
  exact digits_go_ne_nil base n []

/-- The numeral of a number has its value. -/
theorem decimalValue_numeral (n : Nat) : decimalValue (numeral 10 n) = n := by
  have hdigits : ∀ d ∈ digits 10 n, d < 10 := digits_go_lt (by decide) n (by simp)
  rw [decimalValue, numeral, foldl_map_digitChar hdigits, digits, foldl_digits_go (by decide)]
  rfl

/-! ## Literals -/

/-- The body of the literal of a text: quotes and backslashes get a backslash. -/
def literalBody : List Char → List Char
  | [] => []
  | c :: cs => if c == '"' || c == '\\' then '\\' :: c :: literalBody cs else c :: literalBody cs

/-- The quote after the body ends the literal. -/
theorem scanLiteral_literalBody (cs rest : List Char) :
    scanLiteral (literalBody cs ++ '"' :: rest) = (literalBody cs, some rest) := by
  induction cs with
  | nil => rfl
  | cons c cs ih =>
    rw [literalBody]
    split
    · next h =>
      have hc : (c == '\n') = false := by
        rcases Bool.or_eq_true_iff.1 h with h | h
        · rw [beq_iff_eq.1 h]; rfl
        · rw [beq_iff_eq.1 h]; rfl
      simp [scanLiteral, hc, ih]
    · next h =>
      rw [Bool.or_eq_true, not_or, beq_iff_eq, beq_iff_eq] at h
      rw [List.cons_append, scanLiteral]
      · rw [ih]
      · exact h.1
      · exact fun hc _ => h.2 hc
      · exact fun c' rest' hc _ => h.2 hc

/-- Where a literal ends does not depend on what stands behind it. -/
theorem scanLiteral_replace {cs body rest : List Char} (h : scanLiteral cs = (body, some rest))
    (rest' : List Char) : scanLiteral (body ++ '"' :: rest') = (body, some rest') := by
  fun_induction scanLiteral cs generalizing body with
  | case1 => cases h
  | case2 r =>
    cases h
    rfl
  | case3 => cases h
  | case4 => cases h
  | case5 c r hc b a hr ih =>
    cases h
    rw [List.cons_append, List.cons_append, scanLiteral, if_neg hc, ih hr]
  | case6 c r hquote hend hpair b a hr ih =>
    cases h
    have hc : c ≠ '\\' := by
      rintro rfl
      cases r with
      | nil => exact hend rfl rfl
      | cons x r => exact hpair x r rfl rfl
    rw [List.cons_append, scanLiteral]
    · rw [ih hr]
    · exact hquote
    · exact fun hc' _ => hc hc'
    · exact fun _ _ hc' _ => hc hc'

theorem unescape_literalBody (cs : List Char) : unescape (literalBody cs) = cs := by
  induction cs with
  | nil => rfl
  | cons c cs ih =>
    rw [literalBody]
    split
    · next h =>
      have hc : controlEscape? c = none := by
        rcases Bool.or_eq_true_iff.1 h with h | h
        · rw [beq_iff_eq.1 h]; rfl
        · rw [beq_iff_eq.1 h]; rfl
      simp [unescape, hc, ih]
    · next h =>
      rw [Bool.or_eq_true, not_or, beq_iff_eq, beq_iff_eq] at h
      rw [unescape]
      · rw [ih]
      · exact fun hc _ => h.2 hc
      · exact fun c' rest hc _ => h.2 hc

theorem unescapeKeeping_literalBody (cs : List Char) : unescapeKeeping (literalBody cs) = cs := by
  induction cs with
  | nil => rfl
  | cons c cs ih =>
    rw [literalBody]
    split
    · next h => rw [unescapeKeeping, if_pos h, ih]
    · next h =>
      rw [Bool.or_eq_true, not_or, beq_iff_eq, beq_iff_eq] at h
      rw [unescapeKeeping]
      · rw [ih]
      · exact fun hc _ => h.2 hc
      · exact fun c' rest hc _ => h.2 hc

end Stencil
