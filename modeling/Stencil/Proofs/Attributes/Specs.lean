import Mathlib.Data.List.Forall2
import Stencil.Attributes.AggregateSpec
import Stencil.Proofs.Agreement
import Stencil.Proofs.Text.Blank

/-!
# How specs are written

A spec is written as the name of an attribute, a period and a list of fields in braces between commas, with blanks
around every part (`AggregateSpec.IsWritten`). The reader knows nothing of this form: it cuts at the first period,
takes the braces off and cuts at the commas, and trims what is left. Words contain neither blanks nor any of the
signs that it cuts at, so it finds the parts of every text that is written like this, and whatever it accepts is
written like this (`AggregateSpec.parse_eq_ok_iff`). The fields of a spec that it accepts are pairwise different, so
no value of an aggregate takes the place of another (`AggregateSpec.aggregate_of_parse`).
-/

namespace Stencil
namespace AggregateSpec

variable {cs text : List Char} {spec : AggregateSpec}

/-! ## Written specs -/

/-- The name and the fields are words; there is at least one field and no two are the same. -/
structure WellFormed (spec : AggregateSpec) : Prop where
  name : isWord spec.name.toList = true
  fields : ∀ field ∈ spec.fields, isWord field.toList = true
  fields_ne_nil : spec.fields ≠ []
  nodup : spec.fields.Nodup

def listed (parts : List (List Char)) : List Char :=
  '\x7b' :: ([','].intercalate parts ++ ['\x7d'])

/-- The text is the name, a period and the fields between commas in braces, with blanks around every part. -/
def IsWritten (spec : AggregateSpec) (text : List Char) : Prop :=
  ∃ name list parts, text = name ++ '.' :: list ∧ Padded spec.name.toList name ∧ Padded (listed parts) list ∧
    List.Forall₂ (fun field part => Padded field.toList part) spec.fields parts

/-! ## Cuts -/

theorem splitAtPeriod?_eq_some_iff {before after : List Char} :
    splitAtPeriod? cs = some (before, after) ↔ cs = before ++ '.' :: after ∧ '.' ∉ before := by
  have hspan := List.takeWhile_append_dropWhile (p := (· != '.')) (l := cs)
  unfold splitAtPeriod?
  constructor
  · intro h
    split at h
    · cases h
    · next c rest hrest =>
      cases h
      have hc : c = '.' := by simpa [hrest] using List.head?_dropWhile_not (· != '.') cs
      refine ⟨by rw [← hc, ← hrest, hc, hspan], fun hmem => ?_⟩
      simpa using List.mem_takeWhile_imp hmem
  · rintro ⟨rfl, hbefore⟩
    have hcs : ∀ c ∈ before, (c != '.') = true := fun c hc => bne_iff_ne.2 fun heq => hbefore (heq ▸ hc)
    have hstop : ∀ c ∈ ('.' :: after).head?, (c != '.') = false := by simp
    obtain ⟨htake, hdrop⟩ := span_append hcs hstop
    rw [htake, hdrop]

theorem inBraces?_eq_some_iff {inner : List Char} :
    inBraces? cs = some inner ↔ cs = '\x7b' :: (inner ++ ['\x7d']) := by
  unfold inBraces?
  constructor
  · intro h
    split at h
    · next rest =>
      split at h
      · next before hrest =>
        cases h
        rw [List.reverse_eq_cons_iff.1 hrest]
      · cases h
    · cases h
  · rintro rfl
    simp

theorem checkFields_eq_ok_iff {seen fields : List String} {parts : List (List Char)} :
    checkFields seen parts = .ok fields ↔ fields = seen.reverse ++ parts.map String.ofList ∧
      (∀ part ∈ parts, isWord part = true) ∧ (parts.map String.ofList).Nodup ∧
      ∀ part ∈ parts, String.ofList part ∉ seen := by
  induction parts generalizing seen with
  | nil =>
    rw [checkFields]
    constructor
    · rintro ⟨⟩
      simp
    · rintro ⟨rfl, -⟩
      simp
  | cons part parts ih =>
    rw [checkFields]
    by_cases hword : isWord part = true
    · by_cases hseen : String.ofList part ∈ seen
      · simp [hword, hseen]
      · simp [hword, hseen, ih, imp_and, forall_and, and_assoc, and_left_comm]
    · simp [hword]

/-! ## Reading -/

/-- A spec is read from the four cuts that the reader makes. -/
theorem parse_eq_ok_iff_cuts :
    parse text = .ok spec ↔ ∃ name rest inner, splitAtPeriod? (trim text) = some (name, rest) ∧
      isWord (trim name) = true ∧ inBraces? (trim rest) = some inner ∧ spec.name = String.ofList (trim name) ∧
      checkFields [] ((inner.splitOn ',').map trim) = .ok spec.fields := by
  unfold parse
  cases hcut : splitAtPeriod? (trim text) with
  | none => simp
  | some cut =>
    obtain ⟨name, rest⟩ := cut
    by_cases hword : isWord (trim name) = true
    · cases hbraces : inBraces? (trim rest) with
      | none => simp [hword, hbraces]
      | some inner =>
        have hspec : (∃ fields, checkFields [] ((inner.splitOn ',').map trim) = .ok fields ∧
            ⟨String.ofList (trim name), fields⟩ = spec) ↔ spec.name = String.ofList (trim name) ∧
              checkFields [] ((inner.splitOn ',').map trim) = .ok spec.fields := by
          constructor
          · rintro ⟨fields, hfields, rfl⟩
            exact ⟨rfl, hfields⟩
          · rintro ⟨hname, hfields⟩
            exact ⟨spec.fields, hfields, by rw [← hname]⟩
        simpa [hword, hbraces, pure, Except.pure, bind_eq_ok] using hspec
    · simp [hword, bind, Except.bind]

theorem notMem_word {c : Char} (hc : isWordPart c = false) (h : isWord cs = true) : c ∉ cs := by
  intro hmem
  rw [isWordPart_of_isWord h c hmem] at hc
  cases hc

theorem isWritten_of_parse (h : parse text = .ok spec) : spec.WellFormed ∧ spec.IsWritten text := by
  obtain ⟨name, rest, inner, hcut, hname, hbraces, hspec, hfields⟩ := parse_eq_ok_iff_cuts.1 h
  obtain ⟨hfields, hwords, hnodup, -⟩ := checkFields_eq_ok_iff.1 hfields
  rw [List.reverse_nil, List.nil_append] at hfields
  rw [splitAtPeriod?_eq_some_iff] at hcut
  rw [inBraces?_eq_some_iff] at hbraces
  obtain ⟨before, after, htext, hbefore, hafter⟩ := exists_blanks_trim text
  refine ⟨⟨?_, ?_, ?_, hfields ▸ hnodup⟩, before ++ name, rest ++ after, inner.splitOn ',', ?_, ?_, ?_, ?_⟩
  · rwa [hspec, String.toList_ofList]
  · intro field hfield
    obtain ⟨part, hpart, rfl⟩ := List.mem_map.1 (hfields ▸ hfield)
    rw [String.toList_ofList]
    exact hwords part hpart
  · rw [hfields]
    simp [List.splitOn_ne_nil]
  · rw [htext, hcut.1]
    simp
  · obtain ⟨before', after', hname', hbefore', hafter'⟩ := exists_blanks_trim name
    refine ⟨before ++ before', after', ?_, List.forall_mem_append.2 ⟨hbefore, hbefore'⟩, hafter'⟩
    rw [hspec, String.toList_ofList, List.append_assoc, List.append_assoc, ← List.append_assoc before', ← hname']
  · obtain ⟨before', after', hrest, hbefore', hafter'⟩ := exists_blanks_trim rest
    refine ⟨before', after' ++ after, ?_, hbefore', List.forall_mem_append.2 ⟨hafter', hafter⟩⟩
    rw [listed, List.intercalate_splitOn, ← hbraces, ← List.append_assoc, ← hrest]
  · rw [hfields, List.forall₂_map_left_iff, List.forall₂_map_left_iff, List.forall₂_same]
    intro part _
    rw [String.toList_ofList]
    exact exists_blanks_trim part

/-- Trimming leaves a text alone that ends with a list in braces and does not begin with a blank. -/
theorem trim_append_listed (cs : List Char) {parts : List (List Char)}
    (h : ∀ c ∈ (cs ++ listed parts).head?, isBlank c = false) :
    trim (cs ++ listed parts) = cs ++ listed parts := by
  have hlast : (cs ++ listed parts).getLast? = some '\x7d' := by
    rw [listed, ← List.cons_append, ← List.append_assoc, List.getLast?_concat]
  refine trim_eq_self h fun c hc => ?_
  cases hlast.symm.trans hc
  rfl

/-- Blanks around a word and the list behind it are all that trimming takes away. -/
theorem trim_written {name before gap after : List Char} {parts : List (List Char)} (hname : isWord name = true)
    (hbefore : ∀ c ∈ before, isBlank c = true) (hafter : ∀ c ∈ after, isBlank c = true) :
    trim (before ++ (name ++ gap ++ listed parts) ++ after) = name ++ gap ++ listed parts := by
  rw [trim_append hbefore hafter]
  refine trim_append_listed _ ?_
  have hhead := fun c hc => isBlank_of_isWordPart (isWordPart_of_isWord hname c hc)
  cases name with
  | nil => cases hname
  | cons x name =>
    rintro _ ⟨⟩
    exact hhead x List.mem_cons_self

theorem parse_of_isWritten (hspec : spec.WellFormed) (h : spec.IsWritten text) : parse text = .ok spec := by
  obtain ⟨name, list, parts, rfl, ⟨before, gap, rfl, hbefore, hgap⟩, ⟨gap', after, rfl, hgap', hafter⟩, hparts⟩ := h
  have hnil : ∀ c ∈ ([] : List Char), isBlank c = true := List.forall_mem_nil _
  have hname : Padded spec.name.toList (spec.name.toList ++ gap) := ⟨[], gap, rfl, hnil, hgap⟩
  have hlist : trim (gap' ++ listed parts) = listed parts := by
    have htrim : trim (listed parts) = listed parts := trim_append_listed [] (by rintro _ ⟨⟩; rfl)
    exact (trim_eq_iff_padded htrim).2 ⟨gap', [], (List.append_nil _).symm, hgap', hnil⟩
  have htrim : trim (before ++ spec.name.toList ++ gap ++ '.' :: (gap' ++ listed parts ++ after)) =
      (spec.name.toList ++ gap) ++ '.' :: (gap' ++ listed parts) := by
    have htext : trim (before ++ (spec.name.toList ++ (gap ++ '.' :: gap') ++ listed parts) ++ after) =
        spec.name.toList ++ (gap ++ '.' :: gap') ++ listed parts :=
      trim_written hspec.name hbefore hafter
    simpa only [List.append_assoc, List.cons_append] using htext
  have hcomma : ∀ part ∈ parts, ',' ∉ part := by
    intro part hpart
    obtain ⟨field, hfield, hpadded⟩ := exists_mem_of_forall₂ hparts hpart
    exact hpadded.notMem rfl (notMem_word rfl (hspec.fields field hfield))
  have hne : parts ≠ [] := by
    rintro rfl
    exact hspec.fields_ne_nil (List.forall₂_nil_right_iff.1 hparts)
  have hfields : parts.map trim = spec.fields.map String.toList := by
    rw [← List.forall₂_eq_eq_eq, List.forall₂_map_left_iff, List.forall₂_map_right_iff]
    refine (List.forall₂_and_left _ _ |>.2 ⟨hspec.fields, hparts⟩).flip.imp fun part field h => ?_
    exact (trim_eq_iff_padded (trim_word h.1)).2 h.2
  refine parse_eq_ok_iff_cuts.2 ⟨spec.name.toList ++ gap, gap' ++ listed parts, [','].intercalate parts, ?_⟩
  have htrimName := (trim_eq_iff_padded (trim_word hspec.name)).2 hname
  rw [htrim, splitAtPeriod?_eq_some_iff, htrimName, hlist, inBraces?_eq_some_iff, String.ofList_toList,
    List.splitOn_intercalate _ hcomma hne, checkFields_eq_ok_iff, hfields]
  have hsame : (spec.fields.map String.toList).map String.ofList = spec.fields := by simp
  refine ⟨⟨rfl, hname.notMem rfl (notMem_word rfl hspec.name)⟩, hspec.name, rfl, rfl, hsame.symm, ?_,
    hsame.symm ▸ hspec.nodup, fun _ _ => List.not_mem_nil⟩
  exact List.forall_mem_map.2 hspec.fields

/-- A text is read as a spec just if the spec is well-formed and the text is written like it. -/
theorem parse_eq_ok_iff : parse text = .ok spec ↔ spec.WellFormed ∧ spec.IsWritten text :=
  ⟨isWritten_of_parse, fun h => parse_of_isWritten h.1 h.2⟩

theorem nodup_keys_of_parse (h : parse text = .ok spec) {values : List Value}
    (hlength : values.length = spec.fields.length) : ((spec.fields.zip values).map Prod.fst).Nodup := by
  rw [List.map_fst_zip (Nat.le_of_eq hlength.symm)]
  exact (parse_eq_ok_iff.1 h).1.nodup

/-- Every field of a spec that was read has a value of its own. -/
theorem aggregate_of_parse (h : parse text = .ok spec) (values : List Value) :
    spec.aggregate values = if values.length = spec.fields.length then .ok (.aggregate (spec.fields.zip values))
      else .error (.aggregateArity spec.fields.length values.length) := by
  rw [aggregate]
  split
  · next hlength =>
    rw [Dictionary.ofPairs_eq_self (nodup_keys_of_parse h hlength)]
  · rfl

end AggregateSpec
end Stencil
