import Mathlib.Data.List.Nodup
import Stencil.Proofs.Group.Eager

/-!
# Loads that succeed

A load that stops keeps what it has done before, so what a successful load does is said apart: `Loading.Yields`
says that a change succeeds, with what result and in which group, and every step has an equivalence for it. None
of them speaks of an order. Templates are declared one after the other just if their names are pairwise different
and all new to the group (`Group.fresh_append_iff`), and a region that is replaced changes neither which regions
there are nor which bodies are well-formed, so that any list of bodies can be taken at once
(`Loading.yields_forM_replaceRegion_iff`). Only which body stays depends on the order: it is the last one
(`Group.override?_replaceAll`).
-/

namespace Stencil

open Template (Compiled Delimiters)
open GroupFile (GroupSource RegionDecl)

theorem exists_eq_ok_iff {ε α : Type} {x : Except ε α} : (∃ a, x = .ok a) ↔ x.toBool = true := by
  cases x with
  | error e => exact iff_of_false nofun nofun
  | ok a => exact iff_of_true ⟨a, rfl⟩ rfl

namespace Loading

variable {α β : Type}

/-! ## Changes that succeed -/

/-- In the group `g` the change succeeds with the result `a`; the group after it is `g'`. -/
def Yields (m : Loading α) (g : Group) (a : α) (g' : Group) : Prop :=
  m.run.run g = (.ok a, g')

variable {g g' : Group}

theorem yields_bind_iff {m : Loading α} {f : α → Loading β} {b : β} :
    Yields (m >>= f) g b g' ↔ ∃ a g₁, Yields m g a g₁ ∧ Yields (f a) g₁ b g' := by
  unfold Yields
  rw [run_bind]
  cases m.run.run g with
  | mk x g₁ =>
    cases x with
    | error e => exact iff_of_false nofun fun ⟨_, _, hm, _⟩ => nomatch hm
    | ok a =>
      constructor
      · exact fun hf => ⟨a, g₁, rfl, hf⟩
      · rintro ⟨_, _, hm, hf⟩
        cases hm
        exact hf

theorem yields_pure_iff {a b : α} : Yields (pure a) g b g' ↔ b = a ∧ g' = g := by
  have hrun : (pure a : Loading α).run.run g = (.ok a, g) := rfl
  rw [Yields, hrun, Prod.mk.injEq, Except.ok.injEq, eq_comm, eq_comm (a := g)]

theorem yields_lift_iff {x : Except Error α} {a : α} : Yields (liftM x) g a g' ↔ x = .ok a ∧ g' = g := by
  have hrun : (liftM x : Loading α).run.run g = (x, g) := rfl
  rw [Yields, hrun, Prod.mk.injEq, eq_comm (a := g)]

theorem yields_lift_bind_iff {x : Except Error α} {f : α → Loading β} {b : β} :
    Yields (liftM x >>= f) g b g' ↔ ∃ a, x = .ok a ∧ Yields (f a) g b g' := by
  simp only [yields_bind_iff, yields_lift_iff, and_assoc, exists_and_left, exists_eq_left]

theorem yields_group_bind_iff {f : Group → Loading α} {a : α} :
    Yields (group >>= f) g a g' ↔ Yields (f g) g a g' :=
  Iff.rfl

theorem apply_eq_iff {m : Loading Unit} : apply m g = (g', none) ↔ Yields m g () g' := by
  rw [apply, Yields]
  cases m.run.run g with
  | mk x g₁ =>
    cases x with
    | error e =>
      constructor
      · rintro ⟨⟩
      · rintro ⟨⟩
    | ok a =>
      constructor
      · rintro ⟨⟩
        rfl
      · rintro ⟨⟩
        rfl

theorem not_yields_throw {e : Error} {a : α} : ¬Yields (throw e) g a g' :=
  nofun

end Loading

namespace Group

/-! ## Declarations -/

def extend (g : Group) (ds : List (String × Definition)) : Group :=
  { g with templates := g.templates ++ ds }

theorem extend_nil (g : Group) : g.extend [] = g := by
  rw [extend, List.append_nil]

theorem extend_extend (g : Group) (ds es : List (String × Definition)) :
    (g.extend ds).extend es = g.extend (ds ++ es) := by
  simp only [extend, List.append_assoc]

theorem contains_extend (g : Group) (ds : List (String × Definition)) (name : String) :
    (g.extend ds).contains name = true ↔ g.contains name = true ∨ name ∈ ds.map Prod.fst := by
  simp only [contains, Dictionary.contains, Dictionary.lookup_isSome_iff_mem_keys, extend, List.map_append,
    List.mem_append]

/-- The names of the templates are pairwise different, and none is declared in the group. -/
structure Fresh (g : Group) (ds : List (String × Definition)) : Prop where
  distinct : (ds.map Prod.fst).Nodup
  new : ∀ name ∈ ds.map Prod.fst, g.contains name = false

instance (g : Group) (ds : List (String × Definition)) : Decidable (g.Fresh ds) :=
  decidable_of_iff ((ds.map Prod.fst).Nodup ∧ ∀ name ∈ ds.map Prod.fst, g.contains name = false)
    ⟨fun h => ⟨h.1, h.2⟩, fun h => ⟨h.distinct, h.new⟩⟩

theorem fresh_nil (g : Group) : g.Fresh [] :=
  ⟨List.nodup_nil, fun _ h => nomatch h⟩

theorem fresh_singleton_iff {g : Group} {name : String} {d : Definition} :
    g.Fresh [(name, d)] ↔ g.contains name = false :=
  ⟨fun h => h.new name List.mem_cons_self, fun h => ⟨List.nodup_singleton _, by simpa using h⟩⟩

/-- Templates are declared one list after the other just if all can be declared at once. -/
theorem fresh_append_iff {g : Group} {ds es : List (String × Definition)} :
    g.Fresh (ds ++ es) ↔ g.Fresh ds ∧ (g.extend ds).Fresh es := by
  have hnew : (∀ name ∈ es.map Prod.fst, (g.extend ds).contains name = false) ↔
      (∀ name ∈ es.map Prod.fst, g.contains name = false) ∧
        ∀ name ∈ es.map Prod.fst, name ∉ ds.map Prod.fst := by
    simp only [← Bool.not_eq_true, contains_extend, not_or, forall_and]
  constructor
  · rintro ⟨hdistinct, hfresh⟩
    rw [List.map_append] at hdistinct hfresh
    rw [List.forall_mem_append] at hfresh
    obtain ⟨hds, hes, hdisjoint⟩ := List.nodup_append'.1 hdistinct
    exact ⟨⟨hds, hfresh.1⟩, hes, hnew.2 ⟨hfresh.2, fun name hes hds => hdisjoint hds hes⟩⟩
  · rintro ⟨⟨hds, hold⟩, hes, hfresh⟩
    obtain ⟨hfresh, hdisjoint⟩ := hnew.1 hfresh
    refine ⟨?_, ?_⟩ <;> rw [List.map_append]
    · exact List.nodup_append'.2 ⟨hds, hes, fun name hds hes => hdisjoint name hes hds⟩
    · exact List.forall_mem_append.2 ⟨hold, hfresh⟩

end Group

/-! ## Sources -/

namespace GroupConfig

/-- A template of a source, under the delimiters of the source or else those of the group. -/
def definition (c : GroupConfig) (s : GroupSource) (t : GroupFile.TemplateDecl) : String × Definition :=
  (t.name, { params := t.params, body := t.body, delimiters := s.delimiters.getD c.delimiters })

def definitions (c : GroupConfig) (s : GroupSource) : List (String × Definition) :=
  s.templates.map (c.definition s)

/-- The region bodies of a source, with the delimiters that they are read with. -/
def regionBodies (c : GroupConfig) (s : GroupSource) : List (Delimiters × RegionDecl) :=
  s.regions.map fun r => (s.delimiters.getD c.delimiters, r)

end GroupConfig

namespace Loading

variable {g g' : Group}

theorem yields_declare_iff {name : String} {d : Definition} {u : Unit} :
    Yields (declare name d) g u g' ↔ g.Fresh [(name, d)] ∧ g' = g.extend [(name, d)] := by
  rw [Group.fresh_singleton_iff, Yields, run_declare]
  cases g.contains name with
  | true => exact iff_of_false nofun nofun
  | false =>
    constructor
    · rintro ⟨⟩
      exact ⟨rfl, rfl⟩
    · rintro ⟨-, rfl⟩
      rfl

theorem yields_forM_declare_iff {α : Type} {f : α → String × Definition} {xs : List α} {u : PUnit} :
    Yields (xs.forM fun x => declare (f x).1 (f x).2) g u g' ↔ g.Fresh (xs.map f) ∧ g' = g.extend (xs.map f) := by
  induction xs generalizing g with
  | nil =>
    change Yields (pure ()) g u g' ↔ _
    rw [yields_pure_iff, List.map_nil, Group.extend_nil]
    exact and_congr_left' (iff_of_true rfl g.fresh_nil)
  | cons x xs ih =>
    change Yields (declare (f x).1 (f x).2 >>= fun _ => xs.forM fun x => declare (f x).1 (f x).2) g u g' ↔ _
    rw [yields_bind_iff, List.map_cons, ← List.singleton_append, Group.fresh_append_iff, ← Group.extend_extend]
    simp only [yields_declare_iff, ih, and_assoc, exists_and_left, exists_eq_left, exists_const]

theorem yields_declareAll_iff {s : GroupSource} {regions : List (Delimiters × RegionDecl)} :
    Yields (declareAll s) g regions g' ↔
      g.Fresh (g.config.definitions s) ∧ g' = g.extend (g.config.definitions s) ∧
        regions = g.config.regionBodies s := by
  unfold declareAll
  rw [yields_group_bind_iff, yields_bind_iff]
  constructor
  · rintro ⟨_, _, htemplates, hregions⟩
    obtain ⟨rfl, rfl⟩ := yields_pure_iff.1 hregions
    obtain ⟨hfresh, rfl⟩ := (yields_forM_declare_iff (f := g.config.definition s)).1 htemplates
    exact ⟨hfresh, rfl, rfl⟩
  · rintro ⟨hfresh, rfl, rfl⟩
    have htemplates := (yields_forM_declare_iff (u := ⟨⟩) (f := g.config.definition s)).2 ⟨hfresh, rfl⟩
    exact ⟨⟨⟩, _, htemplates, yields_pure_iff.2 ⟨rfl, rfl⟩⟩

end Loading

/-! ## Regions -/

namespace GroupFile.RegionDecl

/-- The region that a body is declared for, and its template. -/
def key (r : RegionDecl) : String × String :=
  (r.template, r.region)

/-- What a declared body replaces its region with, read with the given delimiters. -/
def compile (r : RegionDecl) (delimiters : Delimiters) : Except Error Compiled :=
  Template.compile (r.template ++ "." ++ r.region) r.body none delimiters

end GroupFile.RegionDecl

namespace Group

theorem hasRegion_iff {g : Group} {template region : String} :
    g.HasRegion template region ↔ ∃ owner, g.compiled template = .ok owner ∧ region ∈ owner.regions := by
  constructor
  · rintro ⟨d, owner, hd, howner, hregion⟩
    refine ⟨owner, ?_, hregion⟩
    rw [compiled, hd]
    exact howner
  · rintro ⟨owner, howner, hregion⟩
    exact hasRegion_of_compiled howner hregion

/-- A region body belongs to a region of a declared, well-formed template, and is well-formed itself. -/
structure Replaces (g : Group) (r : Delimiters × RegionDecl) : Prop where
  region : g.HasRegion r.2.template r.2.region
  body : ∃ c, r.2.compile r.1 = .ok c

theorem replaces_iff {g : Group} {r : Delimiters × RegionDecl} : g.Replaces r ↔
    (∃ owner ∈ (g.compiled r.2.template).toOption, r.2.region ∈ owner.regions) ∧
      (r.2.compile r.1).toBool = true := by
  constructor
  · rintro ⟨hregion, hbody⟩
    obtain ⟨owner, howner, hregion⟩ := hasRegion_iff.1 hregion
    rw [howner]
    exact ⟨⟨owner, rfl, hregion⟩, exists_eq_ok_iff.1 hbody⟩
  · rintro ⟨⟨owner, howner, hregion⟩, hbody⟩
    exact ⟨hasRegion_of_compiled (eq_ok_of_toOption howner) hregion, exists_eq_ok_iff.2 hbody⟩

instance (g : Group) (r : Delimiters × RegionDecl) : Decidable (g.Replaces r) :=
  decidable_of_iff _ replaces_iff.symm

/-- The group with a region replaced, if the body is well-formed. -/
def replace (g : Group) (r : Delimiters × RegionDecl) : Group :=
  { g with overrides := (r.2.compile r.1).toOption.elim g.overrides (Dictionary.insert r.2.key · g.overrides) }

def replaceAll (g : Group) (rs : List (Delimiters × RegionDecl)) : Group :=
  rs.foldl replace g

theorem replace_eq {g : Group} {r : Delimiters × RegionDecl} {c : Compiled} (h : r.2.compile r.1 = .ok c) :
    g.replace r = { g with overrides := Dictionary.insert r.2.key c g.overrides } := by
  rw [replace, h]
  rfl

/-- Regions that are replaced change nothing else. -/
theorem replaceAll_eq (g : Group) (rs : List (Delimiters × RegionDecl)) :
    g.replaceAll rs = { g with overrides := (g.replaceAll rs).overrides } := by
  induction rs generalizing g with
  | nil => rfl
  | cons r rs ih => exact ih (g.replace r)

theorem override?_replaceAll_of_ne {g : Group} {rs : List (Delimiters × RegionDecl)} {template region : String}
    (h : ∀ r ∈ rs, r.2.key ≠ (template, region)) :
    (g.replaceAll rs).override? template region = g.override? template region := by
  induction rs generalizing g with
  | nil => rfl
  | cons r rs ih =>
    obtain ⟨hr, hrs⟩ := List.forall_mem_cons.1 h
    refine (ih (g := g.replace r) hrs).trans ?_
    rw [override?, replace]
    cases r.2.compile r.1 with
    | error e => rfl
    | ok c => exact Dictionary.lookup_insert_of_ne hr.symm c g.overrides

/-- What is replaced more than once is replaced by the last body. -/
theorem override?_replaceAll {g : Group} {before after : List (Delimiters × RegionDecl)}
    {r : Delimiters × RegionDecl} {c : Compiled} (hc : r.2.compile r.1 = .ok c)
    (hafter : ∀ r' ∈ after, r'.2.key ≠ r.2.key) :
    (g.replaceAll (before ++ r :: after)).override? r.2.template r.2.region = some c := by
  rw [replaceAll, List.foldl_append, List.foldl_cons]
  refine (override?_replaceAll_of_ne hafter).trans ?_
  rw [replace_eq hc]
  exact Dictionary.lookup_insert_self r.2.key c _

end Group

namespace Loading

variable {g g' : Group}

theorem yields_set_iff {g₁ : Group} {u : PUnit} : Yields (set g₁) g u g' ↔ g' = g₁ := by
  have hrun : (set g₁ : Loading PUnit).run.run g = (.ok ⟨⟩, g₁) := rfl
  rw [Yields, hrun, Prod.mk.injEq, eq_comm (a := g₁)]
  exact and_iff_right rfl

theorem yields_replaceRegion_iff {r : Delimiters × RegionDecl} {u : Unit} :
    Yields (replaceRegion r.2.template r.2.region r.2.body (some r.1)) g u g' ↔
      g.Replaces r ∧ g' = g.replace r := by
  unfold replaceRegion
  rw [yields_group_bind_iff]
  simp only [yields_lift_bind_iff]
  constructor
  · rintro ⟨owner, howner, hreplace⟩
    split at hreplace
    · next hregion =>
      obtain ⟨c, hc, hset⟩ := yields_lift_bind_iff.1 hreplace
      refine ⟨⟨Group.hasRegion_of_compiled howner (by simpa using hregion), c, hc⟩, ?_⟩
      rw [Group.replace_eq hc]
      exact yields_set_iff.1 hset
    · obtain ⟨_, _, hthrow, -⟩ := yields_bind_iff.1 hreplace
      exact absurd hthrow not_yields_throw
  · rintro ⟨⟨hregion, c, hc⟩, rfl⟩
    obtain ⟨owner, howner, hregion⟩ := Group.hasRegion_iff.1 hregion
    refine ⟨owner, howner, ?_⟩
    rw [if_pos (by simpa using hregion), yields_lift_bind_iff]
    refine ⟨c, hc, ?_⟩
    rw [Group.replace_eq hc]
    exact yields_set_iff.2 rfl

/-- A region that is replaced has no effect on whether another one can be. -/
theorem yields_forM_replaceRegion_iff {rs : List (Delimiters × RegionDecl)} {u : PUnit} :
    Yields (rs.forM fun r => replaceRegion r.2.template r.2.region r.2.body (some r.1)) g u g' ↔
      (∀ r ∈ rs, g.Replaces r) ∧ g' = g.replaceAll rs := by
  induction rs generalizing g with
  | nil =>
    change Yields (pure ()) g u g' ↔ _
    rw [yields_pure_iff]
    exact and_congr_left' (iff_of_true rfl (List.forall_mem_nil _))
  | cons r rs ih =>
    have hsame : ∀ r', (g.replace r).Replaces r' ↔ g.Replaces r' :=
      fun r' => ⟨fun h => ⟨h.region, h.body⟩, fun h => ⟨h.region, h.body⟩⟩
    change Yields (replaceRegion r.2.template r.2.region r.2.body (some r.1) >>= fun _ =>
      rs.forM fun r => replaceRegion r.2.template r.2.region r.2.body (some r.1)) g u g' ↔ _
    rw [yields_bind_iff, List.forall_mem_cons]
    simp only [yields_replaceRegion_iff, ih, hsame, and_assoc, exists_and_left, exists_eq_left, exists_const]
    rfl

/-! ## The end of a load -/

theorem yields_finish_iff {rs : List (Delimiters × RegionDecl)} {u : Unit} :
    Yields (finish rs) g u g' ↔
      (∀ r ∈ rs, g.Replaces r) ∧ (g.config.eager = true → g.compileAll = .ok ()) ∧ g' = g.replaceAll rs := by
  have hsame : (g.replaceAll rs).config = g.config ∧ (g.replaceAll rs).compileAll = g.compileAll := by
    rw [Group.replaceAll_eq]
    exact ⟨rfl, rfl⟩
  have hcheck : ∀ {g₁ : Group}, Yields (if g₁.config.eager then liftM g₁.compileAll else pure ()) g₁ u g' ↔
      (g₁.config.eager = true → g₁.compileAll = .ok ()) ∧ g' = g₁ := by
    intro g₁
    split
    · next heager =>
      rw [yields_lift_iff]
      simp [heager]
    · next heager =>
      rw [yields_pure_iff]
      simp [heager]
  refine (yields_bind_iff (m := rs.forM fun r => replaceRegion r.2.template r.2.region r.2.body (some r.1))).trans ?_
  simp only [yields_forM_replaceRegion_iff, yields_group_bind_iff, hcheck]
  constructor
  · rintro ⟨_, _, ⟨hreplaces, rfl⟩, heager, rfl⟩
    rw [hsame.1, hsame.2] at heager
    exact ⟨hreplaces, heager, rfl⟩
  · rintro ⟨hreplaces, heager, rfl⟩
    refine ⟨⟨⟩, _, ⟨hreplaces, rfl⟩, ?_, rfl⟩
    rw [hsame.1, hsame.2]
    exact heager

end Loading
end Stencil
