import Stencil.Proofs.Agreement
import Stencil.Proofs.Locale.Tags

/-!
# How locales are found

A catalog is a history of insertions: the entries of its source are inserted in the order in which they are visited
(`Catalog.ofEntries_eq_ok_iff`), and then what the owner of the catalog inserts. Under a key stands the last locale
that was inserted with a tag of this spelling (`Catalog.stored?_insertAll`). Keys are brought into the one spelling
where they are written and where they are looked up, so that only the spelling of a tag counts
(`Catalog.resolve_congr`), and a locale that is inserted is found by the tags of its spelling and by those that fall
back on it (`Catalog.FindsInserted`), and by no other. Main statement: `Catalog.resolveOrDefault_fallback`.
-/

namespace Stencil

def Locale.key (l : Locale) : String :=
  normalizeTag l.tag

namespace Catalog

variable {c : Catalog} {l : Locale}

/-! ## Histories -/

/-- The locale that stands under a key. -/
def stored? (c : Catalog) (key : String) : Option Locale :=
  c.locales.lookup key

def insertAll (c : Catalog) (ls : List Locale) : Catalog :=
  ls.foldl insert c

theorem stored?_insert (c : Catalog) (l : Locale) (key : String) :
    (c.insert l).stored? key = if l.key = key then some l else c.stored? key := by
  split
  · next h =>
    rw [← h]
    exact Dictionary.lookup_insert_self l.key l c.locales
  · next h => exact Dictionary.lookup_insert_of_ne (Ne.symm h) l c.locales

/-- Of the locales that share a key, the last one that was inserted stands under it. -/
theorem stored?_insertAll (c : Catalog) (ls : List Locale) (key : String) :
    (c.insertAll ls).stored? key = (ls.reverse.find? (·.key == key)).or (c.stored? key) := by
  have hlocales : (c.insertAll ls).locales = ls.foldl (fun d l => Dictionary.insert l.key l d) c.locales :=
    (List.foldl_hom Catalog.locales fun _ _ => rfl).symm
  rw [stored?, hlocales, Dictionary.lookup_foldl_insert, Option.map_id']
  rfl

/-! ## Entries -/

/-- The locale that an entry describes has the one spelling of its tag. -/
theorem key_toLocale {tag : String} {e : CatalogEntry} (h : e.toLocale tag = .ok l) : l.key = normalizeTag tag := by
  obtain ⟨decimal, -, h⟩ := bind_eq_ok.1 h
  cases decimal with
  | none => cases h
  | some decimal =>
    obtain ⟨grouping, -, h⟩ := bind_eq_ok.1 h
    cases h
    exact normalizeTag_normalizeTag tag

theorem foldlM_insert_eq_ok_iff {entries : List (String × CatalogEntry)} {c c' : Catalog} :
    entries.foldlM (fun c q => do return c.insert (← q.2.toLocale q.1)) c = .ok c' ↔
      ∃ ls, List.Forall₂ (fun q l => q.2.toLocale q.1 = .ok l) entries ls ∧ c' = c.insertAll ls := by
  induction entries generalizing c with
  | nil =>
    simp only [List.forall₂_nil_left_iff, exists_eq_left]
    constructor
    · rintro ⟨⟩
      rfl
    · rintro rfl
      rfl
  | cons q entries ih =>
    simp only [List.foldlM_cons, bind_eq_ok, List.forall₂_cons_left_iff]
    constructor
    · rintro ⟨_, ⟨l, hl, ⟨⟩⟩, h⟩
      obtain ⟨ls, hls, rfl⟩ := ih.1 h
      exact ⟨l :: ls, ⟨l, ls, hl, hls, rfl⟩, rfl⟩
    · rintro ⟨_, ⟨l, ls, hl, hls, rfl⟩, rfl⟩
      exact ⟨c.insert l, ⟨l, hl, rfl⟩, ih.2 ⟨ls, hls, rfl⟩⟩

/-- The locales that the entries describe are inserted in their order. -/
theorem ofEntries_eq_ok_iff {entries : List (String × CatalogEntry)} :
    ofEntries entries = .ok c ↔
      ∃ ls, List.Forall₂ (fun q l => q.2.toLocale q.1 = .ok l) entries ls ∧ c = insertAll {} ls :=
  foldlM_insert_eq_ok_iff

variable {entries visited : List (String × CatalogEntry)}

/-- What a catalog has under a key is what an entry describes that has a tag of this spelling. -/
theorem stored?_ofEntries (h : ofEntries entries = .ok c) (key : String) :
    (∀ l, c.stored? key = some l → ∃ q ∈ entries, normalizeTag q.1 = key ∧ q.2.toLocale q.1 = .ok l) ∧
    (c.stored? key = none → ∀ q ∈ entries, normalizeTag q.1 ≠ key) := by
  obtain ⟨ls, hls, rfl⟩ := ofEntries_eq_ok_iff.1 h
  have hentry : (insertAll {} ls).stored? key = ls.reverse.find? (·.key == key) := by
    rw [stored?_insertAll]
    exact Option.or_none
  rw [hentry]
  constructor
  · intro l hl
    obtain ⟨q, hq, htoLocale⟩ := exists_mem_of_forall₂ hls (List.mem_reverse.1 (List.mem_of_find?_eq_some hl))
    refine ⟨q, hq, ?_, htoLocale⟩
    rw [← key_toLocale htoLocale]
    simpa using List.find?_some hl
  · intro hnone q hq hkey
    obtain ⟨l, hl, htoLocale⟩ := exists_mem_of_forall₂ hls.flip hq
    refine List.find?_eq_none.1 hnone l (List.mem_reverse.2 hl) (beq_iff_eq.2 ?_)
    rw [key_toLocale htoLocale, hkey]

set_option maxRecDepth 4000 in
/-- The source of the locales that are always known can be read, and has these locales. -/
theorem ofSource_builtinSource : ofSource builtinSource.toList = .ok builtin := by
  rw [builtinSource, String.toList_ofList]
  exact eq_ok_of_toOption (by decide +kernel)

/-! ## The fallback -/

variable {tag : String}

theorem resolve_eq (c : Catalog) (tag : String) :
    c.resolve tag = (c.stored? (normalizeTag tag)).or (c.stored? (languageOf (normalizeTag tag))) := by
  rw [resolve, stored?, stored?]
  cases c.locales.lookup (normalizeTag tag) <;> rfl

/-- The locale of the tag, that of its language, then those that are always known under the two, and at last the
root locale. -/
theorem resolveOrDefault_eq (c : Catalog) (tag : String) :
    c.resolveOrDefault tag =
      ([c.stored? (normalizeTag tag), c.stored? (languageOf (normalizeTag tag)),
        builtin.stored? (normalizeTag tag),
        builtin.stored? (languageOf (normalizeTag tag))].findSome? id).getD .root := by
  have hfirst : ∀ (o : Option Locale) (os : List (Option Locale)), (o :: os).findSome? id = o.or (os.findSome? id) :=
    fun o os => by cases o <;> rfl
  have hor : c.resolveOrDefault tag = ((c.resolve tag).or (builtin.resolve tag)).getD .root := by
    rw [resolveOrDefault]
    cases c.resolve tag <;> rfl
  rw [hor, resolve_eq, resolve_eq, hfirst, hfirst, hfirst, hfirst, List.findSome?_nil, Option.or_none,
    Option.or_assoc]

/-- Only the spelling that tags have in common counts. -/
theorem resolve_congr {a b : String} (h : SameTag a b) (c : Catalog) :
    c.resolve a = c.resolve b ∧ c.resolveOrDefault a = c.resolveOrDefault b := by
  have hresolve : ∀ c : Catalog, c.resolve a = c.resolve b := by
    intro c
    rw [resolve_eq, resolve_eq, normalizeTag_eq_iff.2 h]
  exact ⟨hresolve c, by rw [resolveOrDefault, resolveOrDefault, hresolve, hresolve]⟩

/-- The tag has the spelling of the locale's tag, or its language has and the catalog has nothing under the tag
itself. -/
def FindsInserted (c : Catalog) (l : Locale) (tag : String) : Prop :=
  normalizeTag tag = l.key ∨ languageOf (normalizeTag tag) = l.key ∧ c.stored? (normalizeTag tag) = none

instance (c : Catalog) (l : Locale) (tag : String) : Decidable (c.FindsInserted l tag) :=
  inferInstanceAs (Decidable (_ ∨ _ ∧ _))

theorem resolve_insert_of_finds (h : c.FindsInserted l tag) : (c.insert l).resolve tag = some l := by
  rw [resolve_eq, stored?_insert, stored?_insert]
  rcases h with h | ⟨h, hnone⟩
  · simp [h]
  · by_cases hkey : l.key = normalizeTag tag <;> simp [hkey, h, hnone]

theorem resolve_insert_of_not_finds (h : ¬c.FindsInserted l tag) : (c.insert l).resolve tag = c.resolve tag := by
  obtain ⟨hkey, hlanguage⟩ := not_or.1 h
  rw [resolve_eq, resolve_eq, stored?_insert, stored?_insert, if_neg (Ne.symm hkey)]
  by_cases heq : l.key = languageOf (normalizeTag tag)
  · have hsome : c.stored? (normalizeTag tag) ≠ none := fun hnone => hlanguage ⟨heq.symm, hnone⟩
    obtain ⟨own, hown⟩ := Option.ne_none_iff_exists'.1 hsome
    rw [hown, Option.some_or, Option.some_or]
  · rw [if_neg heq]

/-- **Locales are found by the fallback chain, however tags are spelled.** A catalog whose entries were visited in
some order, with any locales inserted one after the other. Under a key it has the last inserted locale whose tag has
this spelling, else what an entry describes whose tag has it, and nothing if there is none. For every tag the answer
is the first that exists of: what the catalog has under the one spelling of the tag; what it has under the language,
the part in front of the first hyphen; what is always known under either; the root locale. Tags that differ only in
ASCII case, in underscores for hyphens and in surrounding blanks have the same answers. And a locale that is inserted
next is the answer for the tags that have the spelling of its own, and for those that have its tag as their language
and nothing under themselves; for all other tags nothing changes. -/
theorem resolveOrDefault_fallback (hvisited : visited.Perm entries) {c₀ : Catalog} (h : ofEntries visited = .ok c₀)
    (ls : List Locale) :
    let c := c₀.insertAll ls
    (∀ key,
      c.stored? key = (ls.reverse.find? (·.key == key)).or (c₀.stored? key) ∧
      (∀ l, c₀.stored? key = some l → ∃ q ∈ entries, normalizeTag q.1 = key ∧ q.2.toLocale q.1 = .ok l) ∧
      (c₀.stored? key = none → ∀ q ∈ entries, normalizeTag q.1 ≠ key)) ∧
    (∀ tag, c.resolveOrDefault tag =
      ([c.stored? (normalizeTag tag), c.stored? (languageOf (normalizeTag tag)),
        builtin.stored? (normalizeTag tag), builtin.stored? (languageOf (normalizeTag tag))].findSome? id).getD .root) ∧
    (∀ a b, SameTag a b → c.resolve a = c.resolve b ∧ c.resolveOrDefault a = c.resolveOrDefault b) ∧
    ∀ l tag,
      (c.FindsInserted l tag → (c.insert l).resolve tag = some l ∧ (c.insert l).resolveOrDefault tag = l) ∧
      (¬c.FindsInserted l tag → (c.insert l).resolve tag = c.resolve tag ∧
        (c.insert l).resolveOrDefault tag = c.resolveOrDefault tag) := by
  intro c
  refine ⟨fun key => ⟨stored?_insertAll c₀ ls key, fun l hl => ?_, fun hnone q hq => ?_⟩, c.resolveOrDefault_eq,
    fun a b hab => resolve_congr hab c, fun l tag => ⟨fun hfinds => ?_, fun hfinds => ?_⟩⟩
  · obtain ⟨q, hq, hl⟩ := (stored?_ofEntries h key).1 l hl
    exact ⟨q, hvisited.mem_iff.1 hq, hl⟩
  · exact (stored?_ofEntries h key).2 hnone q (hvisited.mem_iff.2 hq)
  · have hresolve := resolve_insert_of_finds hfinds
    exact ⟨hresolve, by rw [resolveOrDefault, hresolve]; rfl⟩
  · have hresolve := resolve_insert_of_not_finds hfinds
    exact ⟨hresolve, by rw [resolveOrDefault, resolveOrDefault, hresolve]⟩

/-- A catalog of two locales, before and after a locale is inserted for the language of two of the tags. -/
theorem resolveOrDefault_fallback_language :
    let entries : List (String × CatalogEntry) := [("x-test", { decimal := "_" }), ("Y", { decimal := "·" })]
    let l : Locale := { tag := " PL ", decimal := '.', grouping := none }
    ∃ c, ofEntries entries.reverse = .ok c ∧ (c.resolveOrDefault "X_Test").decimal = '_' ∧
      c.resolveOrDefault "qq" = .root ∧ (c.resolveOrDefault "pl-pl").tag = "pl" ∧
      SameTag "pl_PL\t" "pl-pl" ∧ c.resolveOrDefault "pl_PL\t" = c.resolveOrDefault "pl-pl" ∧
      (c.insert l).resolveOrDefault "pl-pl" = l ∧ (c.insert l).resolveOrDefault "pl_PL\t" = l ∧
      (c.insert l).resolveOrDefault "De-CH" = c.resolveOrDefault "De-CH" ∧
      (c.resolveOrDefault "De-CH").tag = "de-ch" := by
  intro entries l
  let x : Locale := { tag := "x-test", decimal := '_', grouping := none }
  let y : Locale := { tag := "y", decimal := '·', grouping := none }
  have hread : ofEntries entries.reverse = .ok ⟨[("y", y), ("x-test", x)]⟩ := eq_ok_of_toOption (by decide +kernel)
  obtain ⟨-, -, hsame, hinsert⟩ := resolveOrDefault_fallback entries.reverse_perm hread []
  have htags : SameTag "pl_PL\t" "pl-pl" := normalizeTag_eq_iff.1 (by decide +kernel)
  exact ⟨_, hread, by decide +kernel, by decide +kernel, by decide +kernel, htags, (hsame _ _ htags).2,
    ((hinsert l "pl-pl").1 (by decide +kernel)).2, ((hinsert l "pl_PL\t").1 (by decide +kernel)).2,
    ((hinsert l "De-CH").2 (by decide +kernel)).2, by decide +kernel⟩

end Catalog
end Stencil
