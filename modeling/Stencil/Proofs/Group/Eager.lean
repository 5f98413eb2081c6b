import Stencil.Instance
import Stencil.Proofs.Evaluation.Errors
import Stencil.Proofs.Group.Growth

/-!
# Eager groups

A load of an eager group ends with a check that every declared template is well-formed. It checks the templates
of all loads before it too, those that failed among them, so a load that succeeds settles the whole group
(`Loading.ensures_finish`), and replacing regions leaves it settled. A run looks templates up by their names,
wherever calls and targets name them, and finds none that is malformed. Main statement: nothing that is rendered
in a settled group fails because of a malformed template (`Group.render_not_malformed`).
-/

namespace Stencil

open Template (Compiled)

/-- Steps that are done one after the other succeed together just if each of them does. -/
theorem forM_eq_ok_iff {ε α : Type} {f : α → Except ε Unit} {xs : List α} :
    xs.forM f = .ok () ↔ ∀ x ∈ xs, f x = .ok () := by
  induction xs with
  | nil => exact iff_of_true rfl (List.forall_mem_nil _)
  | cons x xs ih =>
    change (f x >>= fun _ => xs.forM f) = .ok () ↔ _
    rw [bind_eq_ok, List.forall_mem_cons, ih]
    exact ⟨fun ⟨_, h⟩ => h, fun h => ⟨(), h⟩⟩

/-! ## Loads that succeed -/

/-- Every declared template is well-formed, if the group is eager. -/
def Group.Settled (g : Group) : Prop :=
  g.config.eager = true → g.compileAll = .ok ()

namespace Loading

variable {α β : Type} {Q : Group → Prop}

/-- If the change succeeds, the group after it has the property. -/
def Ensures (Q : Group → Prop) (m : Loading α) : Prop :=
  ∀ g a g', m.run.run g = (.ok a, g') → Q g'

theorem Ensures.bind {m : Loading α} {f : α → Loading β} (hf : ∀ a, Ensures Q (f a)) : Ensures Q (m >>= f) := by
  intro g b g' h
  rw [run_bind] at h
  cases hm : m.run.run g with
  | mk x g₁ =>
    rw [hm] at h
    cases x with
    | error e => cases h
    | ok a => exact hf a g₁ b g' h

theorem Ensures.fail (e : Error) : Ensures Q (throw e : Loading α) := by
  intro g a g' h
  cases h

/-- A load ends with the check of all declared templates. -/
theorem ensures_finish (regions : List (Template.Delimiters × GroupFile.RegionDecl)) :
    Ensures Group.Settled (finish regions) := by
  refine Ensures.bind fun _ g a g' h => ?_
  have hgroup : group.run.run g = (.ok g, g) := rfl
  rw [run_bind, hgroup] at h
  dsimp only at h
  split at h
  · have hcheck : (g.compileAll, g) = (.ok a, g') := h
    cases congrArg Prod.snd hcheck
    exact fun _ => congrArg Prod.fst hcheck
  · next heager =>
    cases h
    exact fun h => absurd h heager

theorem ensures_directory (files : FileTree) (path : String) : Ensures Group.Settled (directory files path) := by
  unfold directory
  split
  · exact .fail _
  · split
    · exact .fail _
    · exact .bind fun regions => ensures_finish _

end Loading

namespace Group

/-! ## What changes leave as it is -/

theorem config_stepwise : Loading.Stepwise fun g g' => g'.config = g.config where
  refl _ := rfl
  trans h h' := h'.trans h
  declare name d g := by
    rw [Loading.run_declare]
    split <;> rfl
  replaceRegion template region body delimiters g := by
    rcases Loading.run_replaceRegion template region body delimiters g with ⟨e, hrun⟩ | ⟨_, _, _, _, hrun⟩ <;>
      rw [hrun]

/-- A change that loads a text, a file or a directory. -/
def Change.IsLoad : Change → Prop
  | source _ | file _ _ | directory _ _ => True
  | define _ _ _ | replaceRegion _ _ _ => False

theorem settled_of_load {g : Group} {load : Change} (hload : load.IsLoad) (h : (g.change load).2 = none) :
    (g.change load).1.Settled := by
  have hensures : Loading.Ensures Settled load.loading := by
    cases load with
    | source text => exact .bind fun _ => .bind fun regions => Loading.ensures_finish regions
    | file files path => exact .bind fun _ => .bind fun regions => Loading.ensures_finish regions
    | directory files path => exact Loading.ensures_directory files path
    | define name params body => exact hload.elim
    | replaceRegion template region body => exact hload.elim
  rw [change, Loading.apply] at h ⊢
  cases hrun : load.loading.run.run g with
  | mk x g' =>
    rw [hrun] at h
    cases x with
    | error e => cases h
    | ok a => exact hensures g a g' hrun

def Change.IsReplacement : Change → Prop
  | replaceRegion _ _ _ => True
  | source _ | file _ _ | directory _ _ | define _ _ _ => False

/-- Regions that are replaced, or are not, change no declaration. -/
theorem after_replacements {changes : List Change} (h : ∀ c ∈ changes, c.IsReplacement) (g : Group) :
    (g.after changes).templates = g.templates ∧ (g.after changes).config = g.config := by
  induction changes generalizing g with
  | nil => exact ⟨rfl, rfl⟩
  | cons c changes ih =>
    obtain ⟨hc, hchanges⟩ := List.forall_mem_cons.1 h
    have hstep : (g.change c).1.templates = g.templates ∧ (g.change c).1.config = g.config := by
      cases c with
      | replaceRegion template region body =>
        rcases g.change_replaceRegion template region body with ⟨_, hchange⟩ | ⟨_, hchange⟩ <;>
          rw [hchange] <;> exact ⟨rfl, rfl⟩
      | _ => exact hc.elim
    obtain ⟨htemplates, hconfig⟩ := ih hchanges (g.change c).1
    exact ⟨htemplates.trans hstep.1, hconfig.trans hstep.2⟩

/-! ## Settled groups -/

theorem compileAll_eq_ok_iff {g : Group} :
    g.compileAll = .ok () ↔ ∀ name, g.contains name = true → ∃ t, g.compiled name = .ok t := by
  have hname : ∀ name, discard (g.compiled name) = .ok () ↔ ∃ t, g.compiled name = .ok t := by
    intro name
    cases g.compiled name with
    | error e => exact iff_of_false nofun fun ⟨_, h⟩ => nomatch h
    | ok t => exact iff_of_true rfl ⟨t, rfl⟩
  have hnames : ∀ name, g.contains name = true ↔ name ∈ g.names := by
    intro name
    rw [contains, Dictionary.contains, Dictionary.lookup_isSome_iff_mem_keys, names, List.mem_mergeSort]
  simp only [compileAll, forM_eq_ok_iff, hname, hnames]

theorem exists_compiled_of_settled {g : Group} (heager : g.config.eager = true) (h : g.Settled) {name : String}
    (hname : g.contains name = true) : ∃ t, g.compiled name = .ok t :=
  compileAll_eq_ok_iff.1 (h heager) name hname

end Group

def Error.IsMalformed : Error → Prop
  | malformed _ _ => True
  | _ => False

/-- No adaptor of the registry fails because of a malformed source. -/
def Adaptors.NeverMalformed (r : Adaptors) : Prop :=
  ∀ key adaptor, r.get? key = some adaptor → ∀ v name, FailsOnly (¬·.IsMalformed) (adaptor v name)

def Renderers.NeverMalformed (r : Renderers) : Prop :=
  ∀ key renderer, r.get? key = some renderer → ∀ v format l, FailsOnly (¬·.IsMalformed) (renderer v format l)

/-! ## The handlers of the engine -/

theorem Adaptor.failsOnly_answer (v : Value) (property : String) (found : Option Value) :
    FailsOnly (¬·.IsMalformed) (answer v property found) := by
  cases found with
  | none => exact .error id
  | some found => exact .ok found

theorem Adaptors.neverMalformed_standard : Adaptors.standard.NeverMalformed := by
  intro key adaptor h v name
  have hmem := Registry.mem_handlers_of_get? h
  have hhandlers : Adaptors.standard.handlers = [(.aggregate, Adaptor.aggregate), (.any, Adaptor.object)] := rfl
  rw [hhandlers, List.mem_cons, List.mem_singleton] at hmem
  rcases hmem with hmem | hmem <;> cases hmem <;> exact Adaptor.failsOnly_answer v name _

theorem Renderer.failsOnly_formatted (format : String) (v : Value) (l : Locale) :
    FailsOnly (¬·.IsMalformed) (formatted format v l) := by
  rw [formatted]
  split
  · exact .ok _
  · exact .error id

theorem Renderers.neverMalformed_standard : Renderers.standard.NeverMalformed := by
  intro key renderer h v format l
  have hmem := Registry.mem_handlers_of_get? h
  have hhandlers : Renderers.standard.handlers = [(.number, Renderer.number), (.str, Renderer.text)] := rfl
  rw [hhandlers, List.mem_cons, List.mem_singleton] at hmem
  rcases hmem with hmem | hmem <;> cases hmem
  · rw [Renderer.number.eq_def]
    split
    · exact .ok _
    · exact .ok _
    · exact Renderer.failsOnly_formatted _ _ l
    · exact Renderer.failsOnly_formatted _ _ l
    · exact .error id
  · rw [Renderer.text.eq_def]
    dsimp only
    split
    any_goals exact .ok _
    split
    · exact Renderer.failsOnly_formatted _ v l
    · exact .error id

/-! ## Rendering -/

namespace Group

section
variable {g : Group} (hcompiled : ∀ name, g.contains name = true → ∃ t, g.compiled name = .ok t)
  (hadaptors : g.adaptors.NeverMalformed) (hrenderers : g.renderers.NeverMalformed)
include hcompiled hadaptors hrenderers

/-- Where every declared template is well-formed, a run meets no malformed one. -/
theorem library_raises : g.library.Raises (¬·.IsMalformed) where
  compiled name := by
    change FailsOnly _ (g.compiled name)
    cases hname : g.contains name with
    | true =>
      obtain ⟨t, ht⟩ := hcompiled name hname
      rw [ht]
      exact .ok t
    | false =>
      have hnone : g.templates.lookup name = none := by
        rwa [contains, Dictionary.contains, Option.isSome_eq_false_iff, Option.isNone_iff_eq_none] at hname
      rw [compiled, hnone]
      exact .error id
  property v name := by
    rw [Adaptors.property]
    split
    · next adaptor h =>
      obtain ⟨key, hkey⟩ := Registry.exists_get?_of_find? h
      exact hadaptors key adaptor hkey v name
    · exact .error id
  renderer v format l := by
    rw [Renderers.render]
    split
    · next renderer h =>
      obtain ⟨key, hkey⟩ := Registry.exists_get?_of_find? h
      exact hrenderers key renderer hkey v format l
    · exact .ok _
  noSuchAttribute _ := id
  noSuchProperty _ _ := id
  argumentCount _ _ _ := id
  recursionLimit _ := id

theorem render_failsOnly (i : Instance) (c : RenderConfig) : FailsOnly (¬·.IsMalformed) (i.render g c) := by
  rw [Instance.render]
  split
  · have hnone : ∀ name, ({} : Group).contains name = true → ∃ t, ({} : Group).compiled name = .ok t :=
      fun name h => nomatch h
    have hrenderers : ({} : Group).renderers.NeverMalformed := fun _ _ h => nomatch h
    exact (library_raises hnone Adaptors.neverMalformed_standard hrenderers).render c i.template i.attributes
  · exact (library_raises hcompiled hadaptors hrenderers).render c i.template i.attributes

end

/-- **In an eager group nothing fails because of a malformed source once a load has succeeded.** Any group that
is eager, a load that succeeds in it, whatever was loaded before and failed, and then any replacements of
regions, with adaptors and renderers that do not fail so themselves. Every declared template is ready to run and
has instances; and no instance, of one of them or of any source text, with any attributes, fails because a
source is malformed. -/
theorem render_not_malformed {g : Group} (heager : g.config.eager = true) {load : Change} (hload : load.IsLoad)
    (hok : (g.change load).2 = none) {later : List Change} (hlater : ∀ c ∈ later, c.IsReplacement)
    {adaptors : Adaptors} (hadaptors : adaptors.NeverMalformed) {renderers : Renderers}
    (hrenderers : renderers.NeverMalformed) :
    let g' : Group := { (g.change load).1.after later with adaptors, renderers }
    (∀ name, g'.contains name = true →
      ∃ t, g'.compiled name = .ok t ∧ Instance.ofName g' name = .ok { template := t }) ∧
    ∀ (i : Instance) (c : RenderConfig) (template : String) (fault : SyntaxError),
      i.render g' c ≠ .error (.malformed template fault) := by
  intro g'
  obtain ⟨htemplates, hconfig⟩ := after_replacements hlater (g.change load).1
  have hcompiled : ∀ name, g'.contains name = true → ∃ t, g'.compiled name = .ok t := by
    have heager' : (g.change load).1.config.eager = true := by
      rw [g.stepwise_change config_stepwise load]
      exact heager
    intro name hname
    have hsame : g'.templates = (g.change load).1.templates := htemplates
    rw [contains, hsame] at hname
    rw [compiled, hsame]
    exact exists_compiled_of_settled heager' (settled_of_load hload hok) hname
  constructor
  · intro name hname
    obtain ⟨t, ht⟩ := hcompiled name hname
    refine ⟨t, ht, ?_⟩
    rw [Instance.ofName, ht]
    rfl
  · intro i c template fault h
    exact render_failsOnly hcompiled hadaptors hrenderers i c _ h trivial

/-- A load that stops at a second template of one name, a load that succeeds, a region that is replaced once
more, and a body that is too malformed to replace it. -/
theorem render_not_malformed_partial :
    let new : Group := { config := { eager := true } }
    let partly := Change.source "page(x) ::= \"[<@head()>]\" page() ::= \"p\""
    let g := new.after [partly]
    let load := Change.source "@page.head() ::= \"<x>\""
    let later := [Change.replaceRegion "page" "head" "(<x>)", .replaceRegion "page" "head" "<"]
    let g' : Group := { (g.change load).1.after later with adaptors := .standard, renderers := .standard }
    (new.change partly).2 = some (.duplicateTemplate "page") ∧
    g.config.eager = true ∧ load.IsLoad ∧ (g.change load).2 = none ∧ (∀ c ∈ later, c.IsReplacement) ∧
    Adaptors.standard.NeverMalformed ∧ Renderers.standard.NeverMalformed ∧
    (∃ t, g'.compiled "page" = .ok t ∧ Instance.ofName g' "page" = .ok { template := t }) ∧
    (do (← (← Instance.inline g' "<page(v)>").set "v" (.int 3)).render g' {}) = .ok "[(3)]" ∧
    ∀ (i : Instance) (c : RenderConfig) (template : String) (fault : SyntaxError),
      i.render g' c ≠ .error (.malformed template fault) := by
  intro new partly g load later g'
  have hpartly : (new.change partly).2 = some (.duplicateTemplate "page") := by decide +kernel
  have heager : g.config.eager = true := by rw [new.stepwise_after config_stepwise [partly]]
  have hload : load.IsLoad := trivial
  have hok : (g.change load).2 = none := by decide +kernel
  have hlater : ∀ c ∈ later, c.IsReplacement :=
    List.forall_mem_cons.2 ⟨trivial, List.forall_mem_cons.2 ⟨trivial, List.forall_mem_nil _⟩⟩
  have hpage : g'.contains "page" = true := by decide +kernel
  have houtput : (do (← (← Instance.inline g' "<page(v)>").set "v" (.int 3)).render g' {}) = .ok "[(3)]" := by
    decide +kernel
  obtain ⟨hcompiled, hrender⟩ := render_not_malformed heager hload hok hlater Adaptors.neverMalformed_standard
    Renderers.neverMalformed_standard
  exact ⟨hpartly, heager, hload, hok, hlater, Adaptors.neverMalformed_standard, Renderers.neverMalformed_standard,
    hcompiled "page" hpage, houtput, hrender⟩

end Group
end Stencil
