import Mathlib.Data.List.TakeWhile
import Stencil.Proofs.Text.Word
import Stencil.Text.Blank

/-!
# Blanks around a text

Trimming takes away the blanks around a text and nothing else: what is left has the text around it again once
blanks are put back (`exists_blanks_trim`), and blanks that are put around a text do not change what trimming leaves
of it (`trim_append`). So a text that trimming leaves alone is what it leaves of exactly those texts that are this
one with blanks around it (`trim_eq_iff_padded`).
-/

namespace Stencil

theorem isBlank_of_isWordPart {c : Char} (h : isWordPart c = true) : isBlank c = false := by
  rw [isWordPart, Char.isAlphanum, Bool.or_eq_true, Bool.or_eq_true, isAlpha_iff_toNat, Char.isDigit_iff_toNat,
    beq_iff_eq] at h
  rcases h with h | rfl
  · change _ ∨ (48 ≤ c.toNat ∧ c.toNat ≤ 57) at h
    simp only [isBlank, Bool.or_eq_false_iff, Bool.and_eq_false_iff, decide_eq_false_iff_not,
      beq_eq_false_iff_ne]
    omega
  · rfl

theorem trim_append {before after cs : List Char} (hbefore : ∀ c ∈ before, isBlank c = true)
    (hafter : ∀ c ∈ after, isBlank c = true) : trim (before ++ cs ++ after) = trim cs := by
  have hend : ∀ xs, trimEnd (xs ++ after) = trimEnd xs := by
    intro xs
    have hreverse : ∀ c ∈ after.reverse, isBlank c = true := fun c hc => hafter c (List.mem_reverse.1 hc)
    rw [trimEnd, List.reverse_append, List.dropWhile_append_of_pos hreverse, trimEnd]
  rw [trim, trimStart, List.append_assoc, List.dropWhile_append_of_pos hbefore, List.dropWhile_append]
  split
  · next hempty =>
    rw [List.dropWhile_eq_nil_iff.2 hafter, trim, trimStart, List.isEmpty_iff.1 hempty]
  · exact hend _

/-- A text is what trimming leaves of it between the blanks that it takes away. -/
theorem exists_blanks_trim (cs : List Char) :
    ∃ before after, cs = before ++ trim cs ++ after ∧ (∀ c ∈ before, isBlank c = true) ∧
      ∀ c ∈ after, isBlank c = true := by
  refine ⟨cs.takeWhile isBlank, ((trimStart cs).reverse.takeWhile isBlank).reverse, ?_,
    fun c hc => List.mem_takeWhile_imp hc, fun c hc => List.mem_takeWhile_imp (List.mem_reverse.1 hc)⟩
  have hend : trim cs ++ ((trimStart cs).reverse.takeWhile isBlank).reverse = trimStart cs := by
    rw [trim, trimEnd, ← List.reverse_append, List.takeWhile_append_dropWhile, List.reverse_reverse]
  rw [List.append_assoc, hend, trimStart, List.takeWhile_append_dropWhile]

theorem trim_map {f : Char → Char} (hf : ∀ c, isBlank (f c) = isBlank c) (cs : List Char) :
    trim (cs.map f) = (trim cs).map f := by
  have hcomp : isBlank ∘ f = isBlank := funext hf
  rw [trim, trimStart, trimEnd, List.dropWhile_map, hcomp, ← List.map_reverse, List.dropWhile_map, hcomp,
    ← List.map_reverse]
  rfl

/-! ## Padded texts -/

/-- The text is the part with blanks around it, if any. -/
def Padded (part text : List Char) : Prop :=
  ∃ before after, text = before ++ part ++ after ∧ (∀ c ∈ before, isBlank c = true) ∧ ∀ c ∈ after, isBlank c = true

theorem trim_eq_iff_padded {part text : List Char} (hpart : trim part = part) :
    trim text = part ↔ Padded part text := by
  constructor
  · rintro rfl
    exact exists_blanks_trim text
  · rintro ⟨before, after, rfl, hbefore, hafter⟩
    rw [trim_append hbefore hafter, hpart]

/-- A character that is no blank stands in a padded text only where it stands in the text itself. -/
theorem Padded.notMem {part text : List Char} (h : Padded part text) {c : Char} (hc : isBlank c = false)
    (hpart : c ∉ part) : c ∉ text := by
  obtain ⟨before, after, rfl, hbefore, hafter⟩ := h
  have hblank : ∀ blanks : List Char, (∀ d ∈ blanks, isBlank d = true) → c ∉ blanks := by
    intro blanks hblanks hmem
    rw [hblanks c hmem] at hc
    cases hc
  simp only [List.mem_append, not_or]
  exact ⟨⟨hblank before hbefore, hpart⟩, hblank after hafter⟩

/-- Trimming leaves a text alone that neither begins nor ends with a blank. -/
theorem trim_eq_self {cs : List Char} (hhead : ∀ c ∈ cs.head?, isBlank c = false)
    (hlast : ∀ c ∈ cs.getLast?, isBlank c = false) : trim cs = cs := by
  have hdrop : ∀ {xs : List Char}, (∀ c ∈ xs.head?, isBlank c = false) → xs.dropWhile isBlank = xs := by
    intro xs hxs
    exact (span_append (List.forall_mem_nil (isBlank · = true)) hxs).2
  rw [trim, trimStart, hdrop hhead, trimEnd, hdrop (List.head?_reverse ▸ hlast), List.reverse_reverse]

theorem trim_word {cs : List Char} (h : isWord cs = true) : trim cs = cs := by
  have hpart := fun c hc => isBlank_of_isWordPart (isWordPart_of_isWord h c hc)
  exact trim_eq_self (fun c hc => hpart c (List.mem_of_head? hc)) fun c hc => hpart c (List.mem_of_getLast? hc)

end Stencil
