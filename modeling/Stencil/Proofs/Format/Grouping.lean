import Stencil.Format.Conversion
import Stencil.Locale.Catalog
import Stencil.Proofs.Agreement

/-!
# Groups of digits

Digits are set apart in groups that are counted from the right, so only the first group may be short
(`Format.groups`). The separator between them does not matter to where they end: digits that are set apart are
their groups with the separator in between (`Format.setApart_eq_intercalate`), and a separator that is not one of
the digits leads back to the groups. The size of a group is never zero, whatever the entry of a locale says of it
(`CatalogEntry.groupSize_toLocale`).

Main statement: `Locale.splitOn_grouped`.
-/

namespace Stencil

/-! ## How large groups are -/

/-- A size of zero counts as one, and no size as three. -/
theorem CatalogEntry.groupSize_toLocale {tag : String} {e : CatalogEntry} {l : Locale} (h : e.toLocale tag = .ok l) :
    l.groupSize = max (e.groupSize.getD 3) 1 := by
  obtain ⟨decimal, -, h⟩ := bind_eq_ok.1 h
  cases decimal with
  | none => cases h
  | some decimal =>
    obtain ⟨grouping, -, h⟩ := bind_eq_ok.1 h
    cases h
    rfl

theorem Dictionary.mem_insert {κ α : Type} [BEq κ] {p : κ × α} {k : κ} {v : α} {d : List (κ × α)}
    (h : p ∈ Dictionary.insert k v d) : p = (k, v) ∨ p ∈ d := by
  induction d with
  | nil => exact .inl (List.mem_singleton.1 h)
  | cons q d ih =>
    rw [Dictionary.insert] at h
    split at h
    · rcases List.mem_cons.1 h with h | h
      · exact .inl h
      · exact .inr (List.mem_cons_of_mem _ h)
    · rcases List.mem_cons.1 h with h | h
      · exact .inr (h ▸ List.mem_cons_self)
      · exact (ih h).imp_right (List.mem_cons_of_mem _)

namespace Catalog

/-- The locales of a catalog are those of its entries and those that were there before. -/
theorem mem_locales_of_foldlM {entries : List (String × CatalogEntry)} {c c' : Catalog}
    (h : entries.foldlM (fun c (tag, e) => do return c.insert (← e.toLocale tag)) c = .ok c') :
    ∀ p ∈ c'.locales, p ∈ c.locales ∨ ∃ q ∈ entries, q.2.toLocale q.1 = .ok p.2 := by
  induction entries generalizing c with
  | nil =>
    cases h
    exact fun p hp => .inl hp
  | cons q entries ih =>
    obtain ⟨c₁, hc₁, h⟩ := bind_eq_ok.1 h
    obtain ⟨l, hl, hc₁⟩ := bind_eq_ok.1 hc₁
    cases hc₁
    intro p hp
    rcases ih h p hp with hp | ⟨q', hq', hp⟩
    · rcases Dictionary.mem_insert hp with rfl | hp
      · exact .inr ⟨q, List.mem_cons_self, hl⟩
      · exact .inl hp
    · exact .inr ⟨q', List.mem_cons_of_mem _ hq', hp⟩

theorem exists_entry_of_ofEntries {entries : List (String × CatalogEntry)} {c : Catalog}
    (h : ofEntries entries = .ok c) : ∀ p ∈ c.locales, ∃ q ∈ entries, q.2.toLocale q.1 = .ok p.2 := by
  intro p hp
  rcases mem_locales_of_foldlM h p hp with hp | hp
  · simp at hp
  · exact hp

end Catalog

/-! ## Groups -/

namespace Format

/-- Groups of `size` digits, counted from the right. -/
def groups (size : Nat) : List Char → List (List Char)
  | [] => []
  | c :: cs => if cs.length % size = 0 then [c] :: groups size cs else (groups size cs).modifyHead (c :: ·)

theorem exists_groups_cons (size : Nat) {cs : List Char} (h : cs ≠ []) : ∃ g gs, groups size cs = g :: gs := by
  induction cs with
  | nil => exact absurd rfl h
  | cons c cs ih =>
    rw [groups]
    split
    · exact ⟨[c], _, rfl⟩
    · next hmod =>
      have hcs : cs ≠ [] := by
        rintro rfl
        exact hmod (Nat.zero_mod size)
      obtain ⟨g, gs, hgroups⟩ := ih hcs
      exact ⟨c :: g, gs, by rw [hgroups]; rfl⟩

theorem flatten_groups (size : Nat) (cs : List Char) : (groups size cs).flatten = cs := by
  induction cs with
  | nil => rfl
  | cons c cs ih =>
    rw [groups]
    split
    · rw [List.flatten_cons, ih]
      rfl
    · next hmod =>
      have hcs : cs ≠ [] := by
        rintro rfl
        exact hmod (Nat.zero_mod size)
      obtain ⟨g, gs, hgroups⟩ := exists_groups_cons size hcs
      rw [hgroups] at ih ⊢
      rw [← ih]
      rfl

/-- All groups but the first are full. The first has the digits that are left over, or is full too if there are
none. -/
theorem groups_full {size : Nat} (hsize : 0 < size) (cs : List Char) :
    (∀ g ∈ (groups size cs).tail, g.length = size) ∧
    ∀ g ∈ (groups size cs).head?, 1 ≤ g.length ∧ g.length ≤ size ∧ g.length % size = cs.length % size := by
  induction cs with
  | nil => simp [groups]
  | cons c cs ih =>
    by_cases hcs : cs = []
    · subst hcs
      refine ⟨by simp [groups], ?_⟩
      rintro g ⟨⟩
      exact ⟨Nat.le_refl 1, hsize, rfl⟩
    · obtain ⟨g, gs, hgroups⟩ := exists_groups_cons size hcs
      rw [hgroups] at ih
      obtain ⟨htail, hhead⟩ := ih
      obtain ⟨hpos, hle, hrest⟩ := hhead g rfl
      rw [groups, hgroups]
      by_cases hmod : cs.length % size = 0
      · -- Nothing is left over, so the group behind the new one is full.
        have hfull : g.length = size := by
          rw [hmod] at hrest
          have := Nat.le_of_dvd hpos (Nat.dvd_of_mod_eq_zero hrest)
          omega
        rw [if_pos hmod]
        refine ⟨List.forall_mem_cons.2 ⟨hfull, htail⟩, ?_⟩
        rintro _ ⟨⟩
        exact ⟨Nat.le_refl 1, hsize, by simp [Nat.add_mod, hmod]⟩
      · have hshort : g.length ≠ size := by
          intro hfull
          rw [hfull, Nat.mod_self] at hrest
          exact hmod hrest.symm
        rw [if_neg hmod]
        refine ⟨htail, ?_⟩
        rintro _ ⟨⟩
        refine ⟨by simp, by simp; omega, ?_⟩
        rw [List.length_cons, List.length_cons, Nat.add_mod, hrest, ← Nat.add_mod]

/-- Digits are set apart by a separator between their groups. -/
theorem setApart_eq_intercalate (separator : Char) (size : Nat) (cs : List Char) :
    setApart separator size cs = [separator].intercalate (groups size cs) := by
  fun_induction setApart separator size cs with
  | case1 => rfl
  | case2 c => simp [groups]
  | case3 c cs hne hmod ih =>
    obtain ⟨g, gs, hgroups⟩ := exists_groups_cons size (by simpa using hne)
    rw [groups, if_pos hmod, ih, hgroups]
    simp
  | case4 c cs hne hmod ih =>
    obtain ⟨g, gs, hgroups⟩ := exists_groups_cons size (by simpa using hne)
    rw [groups, if_neg hmod, ih, hgroups]
    cases gs <;> simp

theorem grouped_of_group {s : Specifier} (hs : s.flags.group = true) {l : Locale} {separator : Char}
    (hl : l.grouping = some separator) (ds : List Char) :
    grouped s l ds = [separator].intercalate (groups l.groupSize ds) := by
  rw [grouped, hs, hl, ← setApart_eq_intercalate]

theorem grouped_eq_self {s : Specifier} {l : Locale} (h : s.flags.group = false ∨ l.grouping = none) (ds : List Char) :
    grouped s l ds = ds := by
  rcases h with h | h
  · rw [grouped, h]
  · rw [grouped, h]
    cases s.flags.group <;> rfl

/-- A separator that is no digit leads back to the groups. -/
theorem splitOn_intercalate_groups {separator : Char} (size : Nat) {ds : List Char} (hds : ds ≠ [])
    (hseparator : separator ∉ ds) : ([separator].intercalate (groups size ds)).splitOn separator = groups size ds := by
  refine List.splitOn_intercalate separator (fun g hg hmem => hseparator ?_) ?_
  · rw [← flatten_groups size ds]
    exact List.mem_flatten.2 ⟨g, hg, hmem⟩
  · obtain ⟨g, gs, hgroups⟩ := exists_groups_cons size hds
    simp [hgroups]

end Format

/-- **Digits are set apart in full groups, and a group is never empty.** A locale of a catalog has the size of groups
that its entry names, in whatever order the entries were visited, but a size of zero counts as one; where the entry
names none, it is three, as it is for the locales that are always known, for one made of its separators alone and for
the root locale. Under any locale, digits that are set apart fall into pieces at the separator, provided that it is
none of them: together the pieces are the digits, the first has at least one of them and no more than the size of a
group, and the others have exactly that many. -/
theorem Locale.splitOn_grouped :
    (∀ entries visited c, visited.Perm entries → Catalog.ofEntries visited = .ok c →
      ∀ p ∈ c.locales, ∃ q ∈ entries, q.2.toLocale q.1 = .ok p.2 ∧ p.2.groupSize = max (q.2.groupSize.getD 3) 1) ∧
    (∀ p ∈ Catalog.builtin.locales, p.2.groupSize = 3) ∧
    (∀ tag decimal grouping, ({ tag, decimal, grouping } : Locale).groupSize = 3) ∧ Locale.root.groupSize = 3 ∧
    ∀ l : Locale, 1 ≤ l.groupSize ∧
      ∀ s : Format.Specifier, s.flags.group = true → ∀ separator, l.grouping = some separator →
        ∀ ds, ds ≠ [] → separator ∉ ds →
          let pieces := (Format.grouped s l ds).splitOn separator
          pieces.flatten = ds ∧ (∀ p ∈ pieces.tail, p.length = l.groupSize) ∧
            ∀ p ∈ pieces.head?, 1 ≤ p.length ∧ p.length ≤ l.groupSize := by
  refine ⟨fun entries visited c hvisited hc p hp => ?_, by decide, fun _ _ _ => rfl, rfl,
    fun l => ⟨l.groupSize_pos, ?_⟩⟩
  · obtain ⟨q, hq, hl⟩ := Catalog.exists_entry_of_ofEntries hc p hp
    exact ⟨q, hvisited.mem_iff.1 hq, hl, CatalogEntry.groupSize_toLocale hl⟩
  · intro s hs separator hseparator ds hds hmem
    have hpieces : (Format.grouped s l ds).splitOn separator = Format.groups l.groupSize ds := by
      rw [Format.grouped_of_group hs hseparator, Format.splitOn_intercalate_groups _ hds hmem]
    obtain ⟨htail, hhead⟩ := Format.groups_full l.groupSize_pos ds
    rw [hpieces]
    exact ⟨Format.flatten_groups _ ds, htail, fun p hp => ⟨(hhead p hp).1, (hhead p hp).2.1⟩⟩

/-- A catalog may ask for groups without digits; there each digit is a group. -/
theorem Locale.splitOn_grouped_zero :
    let entries : List (String × CatalogEntry) := [("x", { decimal := ".", grouping := "_", groupSize := some 0 })]
    let s : Format.Specifier := { flags := { group := true }, conversion := .decimal }
    ∃ c l, Catalog.ofEntries entries = .ok c ∧ c.locales = [("x", l)] ∧ l.groupSize = 1 ∧
      ((Format.grouped s l "123".toList).splitOn '_').flatten = "123".toList ∧
      Format.grouped s l "123".toList = "1_2_3".toList := by
  intro entries s
  let l : Locale := { tag := "x", decimal := '.', grouping := some '_', groupSize := 1 }
  have hread : Catalog.ofEntries entries = .ok ⟨[("x", l)]⟩ := eq_ok_of_toOption (by decide +kernel)
  obtain ⟨hsize, -, -, -, hgroups⟩ := Locale.splitOn_grouped
  obtain ⟨q, hq, -, hl⟩ := hsize entries entries _ (.refl _) hread ("x", l) List.mem_cons_self
  cases List.mem_singleton.1 hq
  exact ⟨_, l, hread, rfl, hl, ((hgroups l).2 s rfl '_' rfl "123".toList (by decide) (by decide)).1, by decide⟩

end Stencil
