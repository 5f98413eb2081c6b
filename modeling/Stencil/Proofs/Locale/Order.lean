import Mathlib.Data.List.Find
import Mathlib.Data.List.Perm.Basic
import Stencil.Proofs.Locale.Fallback

/-!
# Entries in any order

The entries of a source form a table, and a table has no order of its own: they are visited in one order or
another. Every entry is visited and checked by itself, so whether all of them can be read does not depend on the
order (`Catalog.exists_ofEntries_iff`), and neither do the keys of the catalog
(`Catalog.length_insertAll_of_perm`). What stands under a key is what the entry describes that was visited last
among those of one spelling. Main statement: two orders fail together, or give catalogs of one size that have the
same answers, as long as entries of one spelling describe the same locale (`Catalog.ofEntries_orders`). Where two of
them do not (`Catalog.Clash`), the order shows: `Catalog.ofEntries_order_shows`.
-/

namespace Stencil

theorem exists_concat_perm {α : Type} {x : α} {xs : List α} (h : x ∈ xs) : ∃ before, (before ++ [x]).Perm xs := by
  obtain ⟨before, after, rfl⟩ := List.append_of_mem h
  exact ⟨before ++ after, (List.perm_append_singleton x _).trans List.perm_middle.symm⟩

/-! ## What can be read -/

namespace CatalogEntry

/-- There is a single character in front of fractions, and at most one between groups. -/
def IsReadable (e : CatalogEntry) : Prop :=
  e.decimal.toList.length = 1 ∧ e.grouping.toList.length ≤ 1

theorem exists_toLocale_iff {tag : String} {e : CatalogEntry} : (∃ l, e.toLocale tag = .ok l) ↔ e.IsReadable := by
  unfold toLocale separator IsReadable
  rcases e.decimal.toList with _ | ⟨c, _ | ⟨d, cs⟩⟩ <;>
    rcases e.grouping.toList with _ | ⟨c', _ | ⟨d', cs'⟩⟩ <;>
    simp [bind, Except.bind, pure, Except.pure]

end CatalogEntry

namespace Catalog

variable {entries visited : List (String × CatalogEntry)} {ls ls' : List Locale} {c : Catalog}

/-- A source can be read just if each of its entries can. -/
theorem exists_ofEntries_iff : (∃ c, ofEntries entries = .ok c) ↔ ∀ q ∈ entries, q.2.IsReadable := by
  simp only [ofEntries_eq_ok_iff]
  constructor
  · rintro ⟨_, ls, hls, rfl⟩ q hq
    obtain ⟨l, -, hl⟩ := exists_mem_of_forall₂ hls.flip hq
    exact CatalogEntry.exists_toLocale_iff.1 ⟨l, hl⟩
  · intro h
    have hlocale : ∀ q ∈ entries, ∃ l, q.2.toLocale q.1 = .ok l := fun q hq =>
      CatalogEntry.exists_toLocale_iff.2 (h q hq)
    choose! locale hlocale using hlocale
    refine ⟨_, entries.map locale, ?_, rfl⟩
    exact List.forall₂_map_right_iff.2 (List.forall₂_same.2 hlocale)

/-! ## Keys -/

theorem mem_keys_insertAll {key : String} :
    key ∈ (c.insertAll ls).locales.map Prod.fst ↔ key ∈ ls.map Locale.key ∨ key ∈ c.locales.map Prod.fst := by
  induction ls generalizing c with
  | nil => simp [insertAll]
  | cons l ls ih =>
    have hstep : c.insertAll (l :: ls) = (c.insert l).insertAll ls := rfl
    rw [hstep, ih, insert, Dictionary.mem_keys_insert, List.map_cons, List.mem_cons, or_left_comm, or_assoc]
    rfl

theorem nodup_keys_insertAll (h : (c.locales.map Prod.fst).Nodup) :
    ((c.insertAll ls).locales.map Prod.fst).Nodup := by
  induction ls generalizing c with
  | nil => exact h
  | cons l ls ih => exact ih (Dictionary.nodup_keys_insert _ l h)

/-- Every key counts once, however often it was written. -/
theorem length_insertAll_of_perm (h : ls.Perm ls') :
    (insertAll {} ls).locales.length = (insertAll {} ls').locales.length := by
  have hkeys : ((insertAll {} ls).locales.map Prod.fst).Perm ((insertAll {} ls').locales.map Prod.fst) := by
    have hempty : (({} : Catalog).locales.map Prod.fst).Nodup := .nil
    rw [List.perm_ext_iff_of_nodup (nodup_keys_insertAll hempty) (nodup_keys_insertAll hempty)]
    intro key
    rw [mem_keys_insertAll, mem_keys_insertAll, (h.map Locale.key).mem_iff]
  simpa using hkeys.length_eq

/-! ## Answers -/

/-- Two entries of one spelling describe different locales. -/
def Clash (entries : List (String × CatalogEntry)) : Prop :=
  ∃ p ∈ entries, ∃ q ∈ entries, SameTag p.1 q.1 ∧
    ∃ l l', p.2.toLocale p.1 = .ok l ∧ q.2.toLocale q.1 = .ok l' ∧ l ≠ l'

/-- Locales of one key are the same locale if the entries that describe them do not clash. -/
theorem eq_of_not_clash (hclash : ¬Clash entries)
    (hls : List.Forall₂ (fun q l => q.2.toLocale q.1 = .ok l) entries ls) {l l' : Locale} (hl : l ∈ ls)
    (hl' : l' ∈ ls) (hkey : l.key = l'.key) : l = l' := by
  obtain ⟨p, hp, hpl⟩ := exists_mem_of_forall₂ hls hl
  obtain ⟨q, hq, hql⟩ := exists_mem_of_forall₂ hls hl'
  by_contra hne
  refine hclash ⟨p, hp, q, hq, normalizeTag_eq_iff.1 ?_, l, l', hpl, hql, hne⟩
  rw [← key_toLocale hpl, ← key_toLocale hql, hkey]

/-- Locales that are inserted in another order stand under the same keys, unless two of them share one. -/
theorem stored?_insertAll_of_perm (h : ls.Perm ls') (hls : ∀ l ∈ ls, ∀ l' ∈ ls, l.key = l'.key → l = l')
    (key : String) : (insertAll {} ls).stored? key = (insertAll {} ls').stored? key := by
  rw [stored?_insertAll, stored?_insertAll]
  congr 1
  refine List.find?_eq_find?_of_perm (((List.reverse_perm ls).trans h).trans (List.reverse_perm ls').symm) ?_
  rintro l ⟨hl, hkey⟩ l' ⟨hl', hkey'⟩
  exact hls l (List.mem_reverse.1 hl) l' (List.mem_reverse.1 hl')
    ((beq_iff_eq.1 hkey).trans (beq_iff_eq.1 hkey').symm)

/-- The entry that is visited last is the answer for its tag. -/
theorem resolve_of_last {before : List (String × CatalogEntry)} {q : String × CatalogEntry} {l : Locale}
    (h : ofEntries (before ++ [q]) = .ok c) (hl : q.2.toLocale q.1 = .ok l) : c.resolve q.1 = some l := by
  obtain ⟨tag, e⟩ := q
  rw [ofEntries, List.foldlM_append] at h
  obtain ⟨c₀, -, h⟩ := bind_eq_ok.1 h
  simp only [List.foldlM_cons, hl] at h
  cases h
  exact resolve_insert_of_finds (.inl (key_toLocale hl).symm)

/-- Two orders in which the answer for some tag is not the same. -/
theorem exists_orders_of_clash (hclash : Clash entries) (hread : ∀ q ∈ entries, q.2.IsReadable) :
    ∃ visited visited' c c' tag, visited.Perm entries ∧ visited'.Perm entries ∧ ofEntries visited = .ok c ∧
      ofEntries visited' = .ok c' ∧ c.resolve tag ≠ c'.resolve tag := by
  obtain ⟨p, hp, q, hq, htag, l, l', hl, hl', hne⟩ := hclash
  obtain ⟨before, hbefore⟩ := exists_concat_perm hp
  obtain ⟨before', hbefore'⟩ := exists_concat_perm hq
  obtain ⟨c, hc⟩ := exists_ofEntries_iff.2 fun x hx => hread x (hbefore.mem_iff.1 hx)
  obtain ⟨c', hc'⟩ := exists_ofEntries_iff.2 fun x hx => hread x (hbefore'.mem_iff.1 hx)
  refine ⟨_, _, c, c', p.1, hbefore, hbefore', hc, hc', ?_⟩
  rw [resolve_of_last hc hl, (resolve_congr htag c').1, resolve_of_last hc' hl']
  exact fun h => hne (Option.some.inj h)

/-- **Two orders of visiting the entries fail together or give catalogs that are alike.** In any order the entries
are refused just if some entry cannot be read, that is, if a separator in it is not a single character. Otherwise
two orders give catalogs of the same size; and if entries whose tags are spellings of one tag describe the same
locale, both catalogs have the same answers for every tag. If they do not, there are two orders and a tag with
different answers. -/
theorem ofEntries_orders (entries : List (String × CatalogEntry)) :
    (∀ visited, visited.Perm entries →
      ((∃ c, ofEntries visited = .ok c) ↔ ∀ q ∈ entries, q.2.IsReadable)) ∧
    (∀ visited visited', visited.Perm entries → visited'.Perm entries →
      Concur (fun c c' => c.locales.length = c'.locales.length ∧
        (¬Clash entries → ∀ tag, c.resolve tag = c'.resolve tag ∧ c.resolveOrDefault tag = c'.resolveOrDefault tag))
        (ofEntries visited) (ofEntries visited')) ∧
    (Clash entries → (∀ q ∈ entries, q.2.IsReadable) →
      ∃ visited visited' c c' tag, visited.Perm entries ∧ visited'.Perm entries ∧ ofEntries visited = .ok c ∧
        ofEntries visited' = .ok c' ∧ c.resolve tag ≠ c'.resolve tag) := by
  have hread : ∀ visited, visited.Perm entries →
      ((∃ c, ofEntries visited = .ok c) ↔ ∀ q ∈ entries, q.2.IsReadable) := fun visited h => by
    rw [exists_ofEntries_iff]
    exact forall_congr' fun q => imp_congr_left h.mem_iff
  refine ⟨hread, fun visited visited' h h' => ?_, exists_orders_of_clash⟩
  refine .of_ok (fun c hc => ?_) fun c' hc' => (hread visited h).2 ((hread visited' h').1 ⟨c', hc'⟩)
  obtain ⟨ls, hls, rfl⟩ := ofEntries_eq_ok_iff.1 hc
  obtain ⟨ls', hls', hperm⟩ := List.perm_comp_forall₂ (h'.trans h.symm) hls
  refine ⟨_, ofEntries_eq_ok_iff.2 ⟨ls', hls', rfl⟩, length_insertAll_of_perm hperm.symm, fun hclash tag => ?_⟩
  have hvisited : ¬Clash visited := by
    rintro ⟨p, hp, q, hq, hdiffer⟩
    exact hclash ⟨p, h.mem_iff.1 hp, q, h.mem_iff.1 hq, hdiffer⟩
  have hstored := stored?_insertAll_of_perm hperm.symm fun l hl l' hl' => eq_of_not_clash hvisited hls hl hl'
  have hresolve : (insertAll {} ls).resolve tag = (insertAll {} ls').resolve tag := by
    rw [resolve_eq, resolve_eq, hstored, hstored]
  exact ⟨hresolve, by rw [resolveOrDefault, resolveOrDefault, hresolve]⟩

/-- Two spellings of one tag with the same locale, and another tag: in the opposite order the catalog has its keys
the other way round and the same answers. -/
theorem ofEntries_orders_respelled :
    let comma : CatalogEntry := { decimal := ",", grouping := "." }
    let entries := [("pl-x", comma), (" PL_X", { comma with groupSize := some 3 }), ("de", { decimal := "·" })]
    ¬Clash entries ∧ (∀ q ∈ entries, q.2.IsReadable) ∧
    ∃ c c', ofEntries entries = .ok c ∧ ofEntries entries.reverse = .ok c' ∧ c.locales.map Prod.fst = ["pl-x", "de"] ∧
      c'.locales.map Prod.fst = ["de", "pl-x"] ∧ ∀ tag, c.resolve tag = c'.resolve tag := by
  intro comma entries
  have hsame : ∀ p ∈ entries, ∀ q ∈ entries, normalizeTag p.1 = normalizeTag q.1 →
      (p.2.toLocale p.1).toOption = (q.2.toLocale q.1).toOption := by decide +kernel
  have hclash : ¬Clash entries := by
    rintro ⟨p, hp, q, hq, htag, l, l', hl, hl', hne⟩
    have hlocale := hsame p hp q hq (normalizeTag_eq_iff.2 htag)
    rw [hl, hl'] at hlocale
    exact hne (Option.some.inj hlocale)
  have hread : ∀ q ∈ entries, q.2.IsReadable := by
    unfold CatalogEntry.IsReadable
    decide +kernel
  obtain ⟨hok, hconcur, -⟩ := ofEntries_orders entries
  obtain ⟨c, hc⟩ := (hok entries (.refl _)).2 hread
  obtain ⟨c', hc'⟩ := (hok entries.reverse (List.reverse_perm _)).2 hread
  have halike := hconcur entries entries.reverse (.refl _) (List.reverse_perm _)
  rw [hc, hc'] at halike
  have hkeys : ((ofEntries entries).toOption.map fun c => c.locales.map Prod.fst) = some ["pl-x", "de"] := by
    decide +kernel
  have hkeys' : ((ofEntries entries.reverse).toOption.map fun c => c.locales.map Prod.fst) = some ["de", "pl-x"] := by
    decide +kernel
  rw [hc] at hkeys
  rw [hc'] at hkeys'
  cases halike with
  | ok h =>
    exact ⟨hclash, hread, c, c', hc, hc', Option.some.inj hkeys, Option.some.inj hkeys', fun tag =>
      (h.2 hclash tag).1⟩

/-- A source with two spellings of one tag and different separators: the answer is that of the entry which happens
to be visited last. -/
theorem ofEntries_order_shows :
    let source := "[locales.pl]\ndecimal = \",\"\n[locales.PL]\ndecimal = \".\"\n".toList
    let lower : String × CatalogEntry := ("pl", { decimal := "," })
    let upper : String × CatalogEntry := ("PL", { decimal := "." })
    (Toml.parse? source).bind entries? = some [lower, upper] ∧ lower.1 ≠ upper.1 ∧
    ∃ c c', ofEntries [lower, upper] = .ok c ∧ ofEntries [upper, lower] = .ok c' ∧
      (c.resolve "pl").map Locale.decimal = some '.' ∧ (c'.resolve "pl").map Locale.decimal = some ',' := by
  intro source lower upper
  let pl (decimal : Char) : Locale := { tag := "pl", decimal, grouping := none }
  have hfirst : ofEntries [lower, upper] = .ok ⟨[("pl", pl '.')]⟩ := eq_ok_of_toOption (by decide +kernel)
  have hsecond : ofEntries [upper, lower] = .ok ⟨[("pl", pl ',')]⟩ := eq_ok_of_toOption (by decide +kernel)
  exact ⟨by decide +kernel, by decide, _, _, hfirst, hsecond, by decide +kernel, by decide +kernel⟩

end Catalog
end Stencil
