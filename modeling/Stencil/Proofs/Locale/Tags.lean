import Mathlib.Data.List.Forall2
import Stencil.Locale.Catalog
import Stencil.Proofs.Text.Blank

/-!
# Spellings of tags

A tag is looked up by its one spelling. Which tags share it is said without the function that computes it: those
that are the same text, character for character, up to ASCII case and to which of the two separators stands there,
with any blanks around it (`SameTag`). The one spelling of a tag is a spelling of it, so it is its own one spelling
(`normalizeTag_normalizeTag`); a key may be brought into it any number of times.
-/

namespace Stencil

/-! ## Characters of tags -/

/-- Only the upper-case letters of ASCII have another lower case. -/
theorem toLower_cases (c : Char) :
    c.toLower = c ∨ 65 ≤ c.toNat ∧ c.toNat ≤ 90 ∧ c.toLower.toNat = c.toNat + 32 := by
  by_cases h : c.val ≥ 'A'.val ∧ c.val ≤ 'Z'.val
  · have hlower : c.toLower.val = c.val + ('a'.val - 'A'.val) := congrArg Char.val (dif_pos h)
    have hshift : ('a'.val - 'A'.val).toNat = 32 := by decide
    obtain ⟨hle, hge⟩ := h
    have hle' : 65 ≤ c.val.toNat := UInt32.le_iff_toNat_le.1 hle
    have hge' : c.val.toNat ≤ 90 := UInt32.le_iff_toNat_le.1 hge
    refine .inr ⟨hle', hge', ?_⟩
    change c.toLower.val.toNat = c.val.toNat + 32
    rw [hlower, UInt32.toNat_add, hshift]
    omega
  · exact .inl (dif_neg h)

theorem toLower_toLower (c : Char) : c.toLower.toLower = c.toLower := by
  rcases toLower_cases c with h | ⟨hle, hge, h⟩
  · rw [h, h]
  · refine (toLower_cases c.toLower).resolve_right ?_
    omega

theorem isBlank_eq_false {c : Char} (h : 65 ≤ c.toNat) (h' : c.toNat ≤ 122) : isBlank c = false := by
  simp only [isBlank, Bool.or_eq_false_iff, Bool.and_eq_false_iff, decide_eq_false_iff_not, beq_eq_false_iff_ne]
  omega

theorem isBlank_toLower (c : Char) : isBlank c.toLower = isBlank c := by
  rcases toLower_cases c with h | ⟨hle, hge, h⟩
  · rw [h]
  · rw [isBlank_eq_false (by omega) (by omega), isBlank_eq_false hle (by omega)]

/-- A separator is the lower case of itself alone. -/
theorem toLower_eq_iff {c d : Char} (hd : d = '-' ∨ d = '_') : c.toLower = d ↔ c = d := by
  rcases toLower_cases c with h | ⟨hle, hge, h⟩
  · rw [h]
  · have hsign : d.toNat = 45 ∨ d.toNat = 95 := hd.imp (congrArg Char.toNat) (congrArg Char.toNat)
    refine iff_of_false ?_ ?_ <;> rintro rfl <;> omega

def normalizeChar (c : Char) : Char :=
  (if c == '_' then '-' else c).toLower

theorem isBlank_normalizeChar (c : Char) : isBlank (normalizeChar c) = isBlank c := by
  rw [normalizeChar, isBlank_toLower]
  split
  · next h =>
    rw [beq_iff_eq.1 h]
    rfl
  · rfl

theorem normalizeChar_normalizeChar (c : Char) : normalizeChar (normalizeChar c) = normalizeChar c := by
  have hne : normalizeChar c ≠ '_' := by
    rw [normalizeChar, Ne, toLower_eq_iff (.inr rfl)]
    split
    · decide
    · simpa using ‹¬(c == '_') = true›
  rw [normalizeChar, if_neg (by simpa using hne), normalizeChar, toLower_toLower]

/-- The characters are the same up to ASCII case, or both are separators. -/
def SameChar (c d : Char) : Prop :=
  c.toLower = d.toLower ∨ (c = '-' ∨ c = '_') ∧ (d = '-' ∨ d = '_')

theorem normalizeChar_eq_iff {c d : Char} : normalizeChar c = normalizeChar d ↔ SameChar c d := by
  have hhyphen : ∀ e : Char, '-' = e.toLower ↔ e = '-' := fun e => eq_comm.trans (toLower_eq_iff (.inl rfl))
  have hunderscore : ∀ e : Char, '_' = e.toLower ↔ e = '_' := fun e => eq_comm.trans (toLower_eq_iff (.inr rfl))
  have hlower : ('-' : Char).toLower = '-' ∧ ('_' : Char).toLower = '_' := by decide
  by_cases hc : c = '_'
  · by_cases hd : d = '_' <;> simp [normalizeChar, SameChar, hc, hd, hlower, hhyphen, hunderscore]
  · by_cases hd : d = '_'
    · simp [normalizeChar, SameChar, hc, hd, hlower, toLower_eq_iff]
    · have hsame : (c = '-' ∨ c = '_') ∧ (d = '-' ∨ d = '_') → c.toLower = d.toLower := by
        rintro ⟨rfl | h, rfl | h'⟩
        · rfl
        · exact absurd h' hd
        · exact absurd h hc
        · exact absurd h hc
      rw [SameChar, or_iff_left_of_imp hsame, normalizeChar, normalizeChar, if_neg (by simpa using hc),
        if_neg (by simpa using hd)]

/-! ## Tags -/

/-- The tags differ only in the blanks around them, in ASCII case and in which separators they have. -/
def SameTag (a b : String) : Prop :=
  ∃ before cs after before' ds after', a.toList = before ++ cs ++ after ∧ b.toList = before' ++ ds ++ after' ∧
    (∀ c ∈ before ++ after ++ before' ++ after', isBlank c = true) ∧ List.Forall₂ SameChar cs ds

theorem normalizeTag_eq (tag : String) :
    normalizeTag tag = String.ofList ((trim tag.toList).map normalizeChar) :=
  rfl

/-- The tags that have one spelling in common. -/
theorem normalizeTag_eq_iff {a b : String} : normalizeTag a = normalizeTag b ↔ SameTag a b := by
  constructor
  · intro h
    obtain ⟨before, after, ha, hbefore, hafter⟩ := exists_blanks_trim a.toList
    obtain ⟨before', after', hb, hbefore', hafter'⟩ := exists_blanks_trim b.toList
    refine ⟨before, _, after, before', _, after', ha, hb, ?_, ?_⟩
    · simp only [List.forall_mem_append]
      exact ⟨⟨⟨hbefore, hafter⟩, hbefore'⟩, hafter'⟩
    · have hchars : (trim a.toList).map normalizeChar = (trim b.toList).map normalizeChar :=
        String.ofList_injective h
      rw [← List.forall₂_eq_eq_eq, List.forall₂_map_left_iff, List.forall₂_map_right_iff] at hchars
      exact hchars.imp fun _ _ => normalizeChar_eq_iff.1
  · rintro ⟨before, cs, after, before', ds, after', ha, hb, hblank, hsame⟩
    simp only [List.forall_mem_append] at hblank
    obtain ⟨⟨⟨hbefore, hafter⟩, hbefore'⟩, hafter'⟩ := hblank
    have hchars : cs.map normalizeChar = ds.map normalizeChar := by
      rw [← List.forall₂_eq_eq_eq, List.forall₂_map_left_iff, List.forall₂_map_right_iff]
      exact hsame.imp fun _ _ => normalizeChar_eq_iff.2
    rw [normalizeTag_eq, normalizeTag_eq, ha, hb, trim_append hbefore hafter, trim_append hbefore' hafter',
      ← trim_map isBlank_normalizeChar, hchars, trim_map isBlank_normalizeChar]

theorem normalizeTag_normalizeTag (tag : String) : normalizeTag (normalizeTag tag) = normalizeTag tag := by
  obtain ⟨before, after, htag, hbefore, hafter⟩ := exists_blanks_trim tag.toList
  refine normalizeTag_eq_iff.2
    ⟨[], (trim tag.toList).map normalizeChar, [], before, _, after, ?_, htag, ?_, ?_⟩
  · rw [normalizeTag_eq, String.toList_ofList, List.nil_append, List.append_nil]
  · simp only [List.forall_mem_append, List.nil_append]
    exact ⟨hbefore, hafter⟩
  · rw [List.forall₂_map_left_iff, List.forall₂_same]
    exact fun c _ => normalizeChar_eq_iff.1 (normalizeChar_normalizeChar c)

end Stencil
