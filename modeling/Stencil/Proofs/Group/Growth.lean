import Stencil.Group.Loading

/-!
# Groups only grow

A load may stop in the middle and keeps what it had declared before, so nothing is true of a group only because its
last load succeeded. What is always true is shown of the two steps that change a group at all, the declaration of a
template and the replacement of a region, and follows for everything that is made of them (`Loading.Stepwise`). Loads
declare what the parser accepts and nothing else, so for them the declarations of a parsed text are enough
(`Loading.KeptByLoads`). Declared templates stay as they are, and a region is only replaced if a declared template has
it (`Group.Grows`). `Group.after_grows` says so of every sequence of changes.
-/

namespace Stencil

open Template (Compiled Delimiters Parameter)
open GroupFile (GroupSource RegionDecl)

namespace Loading

variable {α β : Type}

/-! ## The two steps -/

theorem run_bind (m : Loading α) (f : α → Loading β) (g : Group) :
    (m >>= f).run.run g =
      match m.run.run g with
      | (.ok a, g') => (f a).run.run g'
      | (.error e, g') => (.error e, g') := by
  change (match m.run.run g with | (x, g') => (ExceptT.bindCont f x).run g') = _
  cases m.run.run g with
  | mk x g' => cases x <;> rfl

theorem run_declare (name : String) (d : Definition) (g : Group) :
    (declare name d).run.run g =
      if g.contains name then (.error (.duplicateTemplate name), g)
      else (.ok (), { g with templates := g.templates ++ [(name, d)] }) := by
  change (if g.contains name then _ else _ : Loading Unit).run.run g = _
  split <;> rfl

/-- A region is replaced if the template has it and the body is well-formed. Otherwise nothing changes. -/
theorem run_replaceRegion (template region body : String) (delimiters : Option Delimiters) (g : Group) :
    (∃ e, (replaceRegion template region body delimiters).run.run g = (.error e, g)) ∨
    ∃ owner replacement, g.compiled template = .ok owner ∧ region ∈ owner.regions ∧
      (replaceRegion template region body delimiters).run.run g =
        (.ok (), { g with overrides := Dictionary.insert (template, region) replacement g.overrides }) := by
  have hgroup : Loading.group.run.run g = (.ok g, g) := rfl
  have hlift : ∀ {γ : Type} (x : Except Error γ), (liftM x : Loading γ).run.run g = (x, g) := fun _ => rfl
  rw [replaceRegion, run_bind, hgroup]
  simp only [run_bind, hlift]
  cases howner : g.compiled template with
  | error e => exact .inl ⟨e, rfl⟩
  | ok owner =>
    by_cases hregion : owner.regions.contains region
    · simp only [hregion, if_true, run_bind, hlift]
      cases Template.compile (template ++ "." ++ region) body none (delimiters.getD owner.delimiters) with
      | error e => exact .inl ⟨e, rfl⟩
      | ok replacement => exact .inr ⟨owner, replacement, rfl, by simpa using hregion, rfl⟩
    · simp only [hregion]
      exact .inl ⟨.noSuchRegion template region, rfl⟩

/-! ## What changes keep -/

theorem apply_fst (m : Loading Unit) (g : Group) : (apply m g).1 = (m.run.run g).2 := by
  unfold apply
  cases m.run.run g with
  | mk x g' => cases x <;> rfl

/-- The group after the change is related to the one before, whether the change ends with a result or with an
error. -/
def Keeps (R : Group → Group → Prop) (m : Loading α) : Prop :=
  ∀ g, R g (m.run.run g).2

/-- A relation that holds of no change and of changes one after the other. -/
structure Chained (R : Group → Group → Prop) : Prop where
  refl : ∀ g, R g g
  trans : ∀ {g g' g''}, R g g' → R g' g'' → R g g''

namespace Chained

variable {R : Group → Group → Prop} (hR : Chained R)
include hR

theorem ofExcept (x : Except Error α) : Keeps R (liftM x : Loading α) :=
  fun g => hR.refl g

theorem fail (e : Error) : Keeps R (throw e : Loading α) :=
  fun g => hR.refl g

theorem result (a : α) : Keeps R (pure a : Loading α) :=
  fun g => hR.refl g

theorem bind {m : Loading α} {f : α → Loading β} (hm : Keeps R m) (hf : ∀ a, Keeps R (f a)) :
    Keeps R (m >>= f) := by
  intro g
  have hg := hm g
  rw [run_bind]
  cases hrun : m.run.run g with
  | mk x g' =>
    rw [hrun] at hg
    cases x with
    | error e => exact hg
    | ok a => exact hR.trans hg (hf a g')

/-- What follows something that changes no group is done for its result only. -/
theorem lift_bind {x : Except Error α} {f : α → Loading β} (hf : ∀ a, x = .ok a → Keeps R (f a)) :
    Keeps R (liftM x >>= f) := by
  cases x with
  | error e => exact hR.fail e
  | ok a => exact hf a rfl

theorem group : Keeps R Loading.group :=
  fun g => hR.refl g

theorem forM {f : α → Loading PUnit} {xs : List α} (h : ∀ x ∈ xs, Keeps R (f x)) : Keeps R (xs.forM f) := by
  induction xs with
  | nil => exact hR.result _
  | cons x xs ih =>
    obtain ⟨hx, hxs⟩ := List.forall_mem_cons.1 h
    change Keeps R (f x >>= fun _ => xs.forM f)
    exact hR.bind hx fun _ => ih hxs

theorem mapM {f : α → Loading β} (h : ∀ x, Keeps R (f x)) (xs : List α) : Keeps R (xs.mapM f) := by
  induction xs with
  | nil => exact hR.result _
  | cons x xs ih =>
    rw [List.mapM_cons]
    exact hR.bind (h x) fun _ => hR.bind ih fun _ => hR.result _

theorem define {name : String} {params : List Parameter} {body : String}
    (h : ∀ delimiters, Keeps R (declare name { params, body, delimiters })) : Keeps R (define name params body) :=
  hR.bind hR.group fun _ => h _

theorem declareAll {source : GroupSource}
    (h : ∀ t ∈ source.templates, ∀ delimiters,
      Keeps R (declare t.name { params := t.params, body := t.body, delimiters })) :
    Keeps R (declareAll source) := by
  refine hR.bind hR.group fun g => ?_
  exact hR.bind (hR.forM fun t ht => h t ht _) fun _ => hR.result _

end Chained

/-- A relation that the parts of a load keep: the declarations of a text that is parsed, and the region bodies. -/
structure KeptByLoads (R : Group → Group → Prop) : Prop extends Chained R where
  declareAll : ∀ text source, GroupFile.parse text = .ok source → Keeps R (declareAll source)
  replaceRegion : ∀ template region body delimiters, Keeps R (replaceRegion template region body delimiters)

namespace KeptByLoads

variable {R : Group → Group → Prop} (hR : KeptByLoads R)
include hR

theorem finish (regions : List (Delimiters × RegionDecl)) : Keeps R (finish regions) := by
  refine hR.bind (hR.forM fun r _ => hR.replaceRegion _ _ _ _) fun _ => hR.bind hR.group fun g => ?_
  split
  · exact hR.ofExcept _
  · exact hR.result _

theorem parsed {label text : String} {source : GroupSource} (h : parseSource label text = .ok source) :
    Keeps R (Loading.declareAll source) := by
  refine hR.declareAll text.toList source ?_
  rw [parseSource] at h
  cases hparse : GroupFile.parse text.toList with
  | error e =>
    rw [hparse] at h
    cases h
  | ok parsed =>
    rw [hparse] at h
    cases h
    rfl

theorem read {files : FileTree} {path : String} {source : GroupSource} (h : readSource files path = .ok source) :
    Keeps R (Loading.declareAll source) := by
  rw [readSource] at h
  split at h
  · exact hR.parsed h
  · cases h

theorem source (text : String) : Keeps R (source text) :=
  hR.lift_bind fun _ h => hR.bind (hR.parsed h) fun regions => hR.finish regions

theorem file (files : FileTree) (path : String) : Keeps R (file files path) :=
  hR.lift_bind fun _ h => hR.bind (hR.read h) fun regions => hR.finish regions

theorem directoryFile (files : FileTree) (directory name : String) :
    Keeps R (directoryFile files directory name) := by
  unfold Loading.directoryFile
  generalize FileTree.splitExtension name = parts
  obtain ⟨stem, extension⟩ := parts
  refine hR.bind hR.group fun g => ?_
  split
  · refine hR.lift_bind fun parsed h => ?_
    dsimp only
    split
    · exact hR.read h
    · exact hR.bind (hR.fail _) fun _ => hR.read h
  · split
    · exact hR.lift_bind fun parsed h => hR.read h
    · exact hR.result _

theorem directory (files : FileTree) (path : String) : Keeps R (directory files path) := by
  unfold Loading.directory
  split
  · exact hR.fail _
  · split
    · exact hR.fail _
    · refine hR.bind (hR.mapM (fun name => hR.directoryFile files path name) _) fun regions => ?_
      exact hR.finish regions.flatten

end KeptByLoads

/-- A relation that the two steps keep, one after the other. -/
structure Stepwise (R : Group → Group → Prop) : Prop where
  refl : ∀ g, R g g
  trans : ∀ {g g' g''}, R g g' → R g' g'' → R g g''
  declare : ∀ name d, Keeps R (declare name d)
  replaceRegion : ∀ template region body delimiters, Keeps R (replaceRegion template region body delimiters)

theorem Stepwise.keptByLoads {R : Group → Group → Prop} (hR : Stepwise R) : KeptByLoads R :=
  have hchained : Chained R := ⟨hR.refl, hR.trans⟩
  ⟨hchained, fun _ _ _ => hchained.declareAll fun t _ _ => hR.declare t.name _, hR.replaceRegion⟩

end Loading

/-! ## Growth -/

namespace Group

/-- The template is declared and well-formed, and has the region, at whatever depth. -/
def HasRegion (g : Group) (template region : String) : Prop :=
  ∃ d owner, g.templates.lookup template = some d ∧ d.compile template = .ok owner ∧ region ∈ owner.regions

/-- Only regions are replaced that a declared template has. -/
def Sound (g : Group) : Prop :=
  ∀ key ∈ g.overrides.map Prod.fst, g.HasRegion key.1 key.2

/-- The second group has the templates of the first, as they were declared there, and is sound if the first
is. -/
structure Grows (g g' : Group) : Prop where
  templates : ∀ name d, g.templates.lookup name = some d → g'.templates.lookup name = some d
  sound : g.Sound → g'.Sound

theorem HasRegion.of_templates {g g' : Group} {template region : String}
    (h : ∀ name d, g.templates.lookup name = some d → g'.templates.lookup name = some d)
    (hregion : g.HasRegion template region) : g'.HasRegion template region := by
  obtain ⟨d, owner, hd, howner, hmem⟩ := hregion
  exact ⟨d, owner, h template d hd, howner, hmem⟩

theorem hasRegion_of_compiled {g : Group} {template region : String} {owner : Compiled}
    (howner : g.compiled template = .ok owner) (hregion : region ∈ owner.regions) :
    g.HasRegion template region := by
  unfold compiled at howner
  split at howner
  · next d hd => exact ⟨d, owner, hd, howner, hregion⟩
  · cases howner

/-- A declaration behind the others does not hide one of them. -/
theorem lookup_templates_append {g : Group} {name other : String} {d : Definition}
    (h : g.templates.lookup name = some d) (d' : Definition) :
    (g.templates ++ [(other, d')]).lookup name = some d := by
  rw [List.lookup_append, h]
  rfl

theorem grows_declare (name : String) (d : Definition) : Loading.Keeps Grows (Loading.declare name d) := by
  intro g
  rw [Loading.run_declare]
  split
  · exact ⟨fun _ _ h => h, fun h => h⟩
  · have htemplates : ∀ other d', g.templates.lookup other = some d' →
        (g.templates ++ [(name, d)]).lookup other = some d' := fun _ _ h => lookup_templates_append h d
    exact ⟨htemplates, fun h key hkey => (h key hkey).of_templates htemplates⟩

theorem grows_replaceRegion (template region body : String) (delimiters : Option Delimiters) :
    Loading.Keeps Grows (Loading.replaceRegion template region body delimiters) := by
  intro g
  rcases Loading.run_replaceRegion template region body delimiters g with
    ⟨e, hrun⟩ | ⟨owner, replacement, howner, hregion, hrun⟩
  · rw [hrun]
    exact ⟨fun _ _ h => h, fun h => h⟩
  · rw [hrun]
    refine ⟨fun _ _ h => h, fun h key hkey => ?_⟩
    rcases Dictionary.mem_keys_insert.1 hkey with rfl | hkey
    · exact hasRegion_of_compiled howner hregion
    · exact h key hkey

theorem grows_stepwise : Loading.Stepwise Grows where
  refl _ := ⟨fun _ _ h => h, fun h => h⟩
  trans h h' := ⟨fun name d hd => h'.templates name d (h.templates name d hd), fun hs => h'.sound (h.sound hs)⟩
  declare := grows_declare
  replaceRegion := grows_replaceRegion

/-! ## Sequences of changes -/

/-- A change that the owner of a group asks for. Files are read as they are at that time. -/
inductive Change where
  | source (text : String)
  | file (files : FileTree) (path : String)
  | directory (files : FileTree) (path : String)
  | define (name : String) (params : List Parameter) (body : String)
  | replaceRegion (template region body : String)

/-- The steps of a change. -/
def Change.loading : Change → Loading Unit
  | source text => Loading.source text
  | file files path => Loading.file files path
  | directory files path => Loading.directory files path
  | define name params body => Loading.define name params body
  | replaceRegion template region body => Loading.replaceRegion template region body none

/-- The group after a change and the error that the change stopped with. -/
def change (g : Group) (c : Change) : Group × Option Error :=
  Loading.apply c.loading g

/-- The group after the changes, of which any may fail. -/
def after (g : Group) (changes : List Change) : Group :=
  changes.foldl (fun g c => (g.change c).1) g

theorem stepwise_change {R : Group → Group → Prop} (hR : Loading.Stepwise R) (g : Group) (c : Change) :
    R g (g.change c).1 := by
  rw [change, Loading.apply_fst]
  cases c with
  | source text => exact hR.keptByLoads.source text g
  | file files path => exact hR.keptByLoads.file files path g
  | directory files path => exact hR.keptByLoads.directory files path g
  | define name params body => exact hR.keptByLoads.define (fun _ => hR.declare name _) g
  | replaceRegion template region body => exact hR.replaceRegion template region body none g

theorem stepwise_after {R : Group → Group → Prop} (hR : Loading.Stepwise R) (g : Group) (changes : List Change) :
    R g (g.after changes) := by
  induction changes generalizing g with
  | nil => exact hR.refl g
  | cons c changes ih => exact hR.trans (g.stepwise_change hR c) (ih (g.change c).1)

theorem grows_after (g : Group) (changes : List Change) : g.Grows (g.after changes) :=
  g.stepwise_after grows_stepwise changes

/-- A replacement of a region fails and changes nothing, or stores the replacement and changes nothing else. -/
theorem change_replaceRegion (g : Group) (template region body : String) :
    (∃ e, g.change (.replaceRegion template region body) = (g, some e)) ∨
    ∃ replacement, g.change (.replaceRegion template region body) =
      ({ g with overrides := Dictionary.insert (template, region) replacement g.overrides }, none) := by
  rw [change, Change.loading, Loading.apply]
  rcases Loading.run_replaceRegion template region body none g with ⟨e, hrun⟩ | ⟨_, replacement, _, _, hrun⟩
  · rw [hrun]
    exact .inl ⟨e, rfl⟩
  · rw [hrun]
    exact .inr ⟨replacement, rfl⟩

theorem change_replaceRegion_of_error {g : Group} {template region body : String} {e : Error}
    (h : (g.change (.replaceRegion template region body)).2 = some e) :
    (g.change (.replaceRegion template region body)).1 = g := by
  rcases g.change_replaceRegion template region body with ⟨_, hchange⟩ | ⟨_, hchange⟩
  · rw [hchange]
  · rw [hchange] at h
    cases h

/-- **Groups only grow.** Whatever changes are made to a new group, and whichever of them fail: a template that
was declared at some point is declared ever after with the same parameters, body and delimiters; every region
that is replaced is a region of a declared, well-formed template; and a replacement that fails leaves the
replaced regions as they were. -/
theorem after_grows (config : GroupConfig) (adaptors : Adaptors) (renderers : Renderers)
    (earlier later : List Change) :
    let g := Group.after { config, adaptors, renderers } earlier
    let g' := g.after later
    (∀ name d, g.templates.lookup name = some d → g'.templates.lookup name = some d) ∧
    (∀ template region, (template, region) ∈ g'.overrides.map Prod.fst → g'.HasRegion template region) ∧
    ∀ template region body e, (g'.change (.replaceRegion template region body)).2 = some e →
      (g'.change (.replaceRegion template region body)).1.overrides = g'.overrides := by
  intro g g'
  have hnew : Group.Sound { config, adaptors, renderers } := by
    intro key hkey
    cases hkey
  refine ⟨(g.grows_after later).templates, fun template region h => ?_, fun _ _ _ _ h => ?_⟩
  · exact (g.grows_after later).sound ((grows_after _ earlier).sound hnew) _ h
  · rw [change_replaceRegion_of_error h]

/-- A load that stops at a template which is declared already, after it declared another; then a region that
is replaced, and one that the template does not have. -/
theorem after_grows_partial :
    let g := Group.after {} [.source "page() ::= \"[<@head()>]\""]
    let load := Change.source "foot() ::= \"f\" page() ::= \"p\""
    let g' := g.after [load, .replaceRegion "page" "head" "h"]
    let refused := Change.replaceRegion "page" "tail" "t"
    (g.change load).2 = some (.duplicateTemplate "page") ∧ g'.contains "foot" ∧
    (∃ d, g.templates.lookup "page" = some d ∧ d.body = "[<@head()>]" ∧
      g'.templates.lookup "page" = some d) ∧
    ("page", "head") ∈ g'.overrides.map Prod.fst ∧ g'.HasRegion "page" "head" ∧
    (g'.change refused).2 = some (.noSuchRegion "page" "tail") ∧
    (g'.change refused).1.overrides = g'.overrides := by
  intro g load g' refused
  obtain ⟨htemplates, hregions, hrefused⟩ :=
    after_grows {} .standard {} [.source "page() ::= \"[<@head()>]\""] [load, .replaceRegion "page" "head" "h"]
  have hload : (g.change load).2 = some (.duplicateTemplate "page") := by decide +kernel
  have hfoot : g'.contains "foot" := by decide +kernel
  have hpage : (g.templates.lookup "page").map (·.body) = some "[<@head()>]" := by decide +kernel
  have hkey : ("page", "head") ∈ g'.overrides.map Prod.fst := by decide +kernel
  have herror : (g'.change refused).2 = some (.noSuchRegion "page" "tail") := by decide +kernel
  obtain ⟨d, hd, hbody⟩ := Option.map_eq_some_iff.1 hpage
  exact ⟨hload, hfoot, ⟨d, hd, hbody, htemplates "page" d hd⟩, hkey, hregions "page" "head" hkey, herror,
    hrefused "page" "tail" "t" _ herror⟩

end Group

end Stencil
