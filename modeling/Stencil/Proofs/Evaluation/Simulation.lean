import Stencil.Proofs.Evaluation.Balanced
import Stencil.Proofs.Evaluation.Scopes
import Stencil.Proofs.Layout.Elements

/-!
# One level, run twice

Two libraries run side by side: the values, the writers and the bodies that they meet are related, and so the
two runs agree. A `Simulation` says what is related and that the operations which a level uses keep it so;
from that follows, step by step, that items, outcomes, expressions and nodes agree (`Simulation.runNodes`), as
long as the bodies do that are run one level deeper (`Simulation.Enters`). For all levels this is proved by
induction on the levels that are left; `Parallel.nested` does so for two libraries with the same templates.
-/

namespace Stencil

open Template (Argument Compiled ListFunction Node Options Primary Target)
open Writer (Balanced)

structure Simulation (lib lib' : Library) (c c' : RenderConfig) where
  /-- The errors with which the first run may stop by itself. -/
  cut : Error → Prop
  value : Value → Value → Prop
  writer : Writer → Writer → Prop
  entry : Entry → Entry → Prop
  options : Options → Options → Prop
  refl : ∀ v, value v v
  eq_or_not_list : ∀ {v v'}, value v v' → v = v' ∨ (v.isList = false ∧ v'.isList = false)
  empty : writer .empty .empty
  text : ∀ {w w'}, writer w w' → value (.str w.text) (.str w'.text)
  write : ∀ {w w'}, writer w w' → ∀ cs, writer (w.write cs) (w'.write cs)
  render : ∀ {v v'}, value v v' → ∀ {o o'}, options o o' →
    AgreeUnless cut (fun t t' => ∀ w w', writer w w' → writer (w.write t.toList) (w'.write t'.toList))
      (lib.renderers.render v o.format c.locale) (lib'.renderers.render v' o'.format c'.locale)
  /-- Elements that agree one by one agree together, however they are laid out. -/
  elements : ∀ {o o'}, options o o' → ∀ {r r' : Item → Writer → Except Error Writer} {xs xs' : List Item},
    (∀ x, Balanced (r x)) → (∀ x, Balanced (r' x)) →
    List.Forall₂ (fun x x' => ∀ w w', writer w w' → AgreeUnless cut writer (r x w) (r' x' w')) xs xs' →
    ∀ {w w'}, writer w w' → AgreeUnless cut writer
      (do return (← (w.beginExpression o.anchor).writeElements (Library.layout c o) r true xs).endExpression)
      (do return (← (w'.beginExpression o'.anchor).writeElements (Library.layout c' o') r' true
        xs').endExpression)

namespace Simulation

variable {lib lib' : Library} {c c' : RenderConfig} (s : Simulation lib lib' c c') {enter enter' : Runner}
  {f f' : Frame}

/-! ## Items and outcomes -/

inductive RelatedItems (f f' : Frame) : Item → Item → Prop where
  | value {v v' : Value} : s.value v v' → RelatedItems f f' (.value v) (.value v')
  | body {item item' : Item} {r r' : Except Error Entry} :
    lib.entryOf? f item = some r → lib'.entryOf? f' item' = some r' → AgreeUnless s.cut s.entry r r' →
    RelatedItems f f' item item'

inductive RelatedOutcomes (f f' : Frame) : Outcome → Outcome → Prop where
  | one {item item' : Item} : s.RelatedItems f f' item item' → RelatedOutcomes f f' (.one item) (.one item')
  | many {items items' : List Item} :
    List.Forall₂ (s.RelatedItems f f') items items' → RelatedOutcomes f f' (.many items) (.many items')

/-- The target runs related bodies for related elements. -/
def RelatedTargets (f f' : Frame) (target target' : Target Span) : Prop :=
  ∀ v v' index, s.value v v' →
    AgreeUnless s.cut s.entry (lib.targetEntry f target v index) (lib'.targetEntry f' target' v' index)

/-- Related bodies agree one level deeper. -/
def Enters (enter enter' : Runner) : Prop :=
  ∀ {e e'}, s.entry e e' → ∀ {w w'}, s.writer w w' → AgreeUnless s.cut s.writer (enter e w) (enter' e' w')

variable {s}

theorem relatedItems_refl (vs : List Value) :
    List.Forall₂ (s.RelatedItems f f') (vs.map .value) (vs.map .value) := by
  induction vs with
  | nil => exact .nil
  | cons v vs ih => exact .cons (.value (s.refl v)) ih

theorem relatedOutcomes_ofValue {v v' : Value} (h : s.value v v') :
    s.RelatedOutcomes f f' (.ofValue v) (.ofValue v') := by
  have hone : ∀ v : Value, v.isList = false → Outcome.ofValue v = .one (.value v) := by
    intro v hv
    cases v with
    | list vs => cases hv
    | _ => rfl
  rcases s.eq_or_not_list h with rfl | ⟨hv, hv'⟩
  · cases hl : v.isList with
    | false =>
      rw [hone v hl]
      exact .one (.value h)
    | true =>
      cases v with
      | list vs => exact .many (relatedItems_refl vs)
      | _ => cases hl
  · rw [hone v hv, hone v' hv']
    exact .one (.value h)

theorem leaves_of_isList_eq_false {v : Value} (h : v.isList = false) : v.leaves = [v] := by
  cases v with
  | list vs => cases h
  | _ => simp [Value.leaves]

/-- An item without lists. -/
theorem RelatedItems.flat {item item' : Item} (h : s.RelatedItems f f' item item') :
    List.Forall₂ (s.RelatedItems f f') (Outcome.elements.flat item) (Outcome.elements.flat item') := by
  cases h with
  | @value v v' h =>
    rw [Outcome.elements.flat, Outcome.elements.flat]
    rcases s.eq_or_not_list h with rfl | ⟨hv, hv'⟩
    · exact relatedItems_refl _
    · rw [leaves_of_isList_eq_false hv, leaves_of_isList_eq_false hv']
      exact .cons (.value h) .nil
  | body hr hr' h =>
    have hflat : ∀ {lib : Library} {f : Frame} {item : Item} {r : Except Error Entry},
        lib.entryOf? f item = some r → Outcome.elements.flat item = [item] := by
      intro lib f item r hr
      cases item with
      | value v => cases hr
      | call name args => rfl
      | apply target element index => rfl
    rw [hflat hr, hflat hr']
    exact .cons (.body hr hr' h) .nil

theorem RelatedOutcomes.elements {o o' : Outcome} (h : s.RelatedOutcomes f f' o o') :
    List.Forall₂ (s.RelatedItems f f') o.elements o'.elements := by
  cases h with
  | one h => exact h.flat
  | many h =>
    rw [Outcome.elements, Outcome.elements]
    induction h with
    | nil => exact .nil
    | cons h _ ih => exact List.rel_append h.flat ih

theorem rel_getLast? {α β : Type} {R : α → β → Prop} {xs : List α} {ys : List β} (h : List.Forall₂ R xs ys) :
    Option.Rel R xs.getLast? ys.getLast? := by
  have hreverse := List.rel_reverse h
  rw [← List.head?_reverse, ← List.head?_reverse]
  generalize xs.reverse = xs, ys.reverse = ys at hreverse
  cases hreverse with
  | nil => exact .none
  | cons h _ => exact .some h

theorem RelatedOutcomes.applyFunction {o o' : Outcome} (h : s.RelatedOutcomes f f' o o')
    (function : ListFunction) :
    s.RelatedOutcomes f f' (o.applyFunction function) (o'.applyFunction function) := by
  have hint : ∀ n : Int, s.RelatedOutcomes f f' (.one (.value (.int n))) (.one (.value (.int n))) :=
    fun n => .one (.value (s.refl _))
  cases function with
  | length =>
    cases h with
    | one _ => exact hint 1
    | many h =>
      rw [Outcome.applyFunction, Outcome.applyFunction, h.length_eq]
      exact hint _
  | first =>
    cases h with
    | one h => exact .one h
    | many h =>
      cases h with
      | nil => exact .many .nil
      | cons h _ => exact .one h
  | last =>
    cases h with
    | one h => exact .one h
    | @many items items' h =>
      have hlast := rel_getLast? h
      rw [Outcome.applyFunction, Outcome.applyFunction]
      generalize items.getLast? = last, items'.getLast? = last' at hlast
      cases hlast with
      | none => exact .many .nil
      | some h => exact .one h
  | rest =>
    cases h with
    | one _ => exact .many .nil
    | many h => exact .many (by simpa using List.forall₂_drop 1 h)
  | trunc =>
    cases h with
    | one _ => exact .many .nil
    | @many items items' h =>
      refine .many ?_
      rw [List.dropLast_eq_take, List.dropLast_eq_take, ← h.length_eq]
      exact List.forall₂_take _ h
  | reverse =>
    cases h with
    | one h => exact .one h
    | many h => exact .many (List.rel_reverse h)

/-! ## What an expression comes to -/

theorem relatedOutcomes_path {p p' : Template.Path Span}
    (h : AgreeUnless s.cut s.value (lib.adaptors.resolve f.scope p) (lib'.adaptors.resolve f'.scope p')) :
    AgreeUnless s.cut (s.RelatedOutcomes f f') (lib.primary f (.path p)) (lib'.primary f' (.path p')) :=
  h.bind fun _ _ hv => .ok (relatedOutcomes_ofValue hv)

theorem relatedOutcomes_call {name : String} {place place' : Span} {args args' : List (Argument Span)}
    (h : AgreeUnless s.cut s.entry (lib.callEntry f name args) (lib'.callEntry f' name args')) :
    AgreeUnless s.cut (s.RelatedOutcomes f f') (lib.primary f (.call name place args))
      (lib'.primary f' (.call name place' args')) :=
  .ok (.one (.body rfl rfl h))

theorem relatedOutcomes_function {function : ListFunction} {arg arg' : Argument Span}
    (h : AgreeUnless s.cut s.value (lib.adaptors.argument f.scope arg)
      (lib'.adaptors.argument f'.scope arg')) :
    AgreeUnless s.cut (s.RelatedOutcomes f f') (lib.primary f (.function function arg))
      (lib'.primary f' (.function function arg')) :=
  h.bind fun _ _ hv => .ok ((relatedOutcomes_ofValue hv).applyFunction function)

theorem RelatedItems.force (henter : s.Enters enter enter') {item item' : Item}
    (h : s.RelatedItems f f' item item') :
    AgreeUnless s.cut s.value (lib.force c enter f item) (lib'.force c' enter' f' item') := by
  cases h with
  | value h => exact .ok h
  | body hr hr' h =>
    rw [Library.force_eq_of_entryOf? hr, Library.force_eq_of_entryOf? hr']
    refine h.bind fun e e' he => ?_
    exact (henter he s.empty).bind fun w w' hw => .ok (s.text hw)

theorem RelatedOutcomes.applyTarget (henter : s.Enters enter enter') {o o' : Outcome}
    (h : s.RelatedOutcomes f f' o o') {target target' : Target Span}
    (ht : s.RelatedTargets f f' target target') :
    AgreeUnless s.cut (s.RelatedOutcomes f f') (lib.applyTarget c enter f o target)
      (lib'.applyTarget c' enter' f' o' target') := by
  have happly : ∀ v v' index, s.value v v' →
      s.RelatedItems f f' (.apply target v index) (.apply target' v' index) :=
    fun v v' index hv => .body rfl rfl (ht v v' index hv)
  cases h with
  | one h =>
    refine (h.force henter).bind fun v v' hv => ?_
    exact .ok (.one (happly v v' 0 hv))
  | many h =>
    refine (AgreeUnless.mapM (fun _ _ hi => hi.force henter) h).bind fun vs vs' hvs => ?_
    refine .ok (.many ?_)
    rw [List.forall₂_iff_get]
    refine ⟨by simp [hvs.length_eq], fun i hi hi' => ?_⟩
    simp only [List.get_eq_getElem, List.getElem_mapIdx]
    exact happly _ _ i (hvs.get _ _)

/-- What an expression comes to in both runs if its primary and its targets are related. -/
theorem relatedOutcomes_outcome (henter : s.Enters enter enter') {p p' : Primary Span}
    {targets targets' : List (Target Span)}
    (hp : AgreeUnless s.cut (s.RelatedOutcomes f f') (lib.primary f p) (lib'.primary f' p'))
    (ht : List.Forall₂ (s.RelatedTargets f f') targets targets') :
    AgreeUnless s.cut (s.RelatedOutcomes f f') (lib.outcome c enter f p targets)
      (lib'.outcome c' enter' f' p' targets') :=
  hp.bind fun _ _ ho => AgreeUnless.foldlM (fun _ _ _ _ ho ht => ho.applyTarget henter ht) ht ho

/-! ## Nodes -/

theorem RelatedItems.writeItem (henter : s.Enters enter enter') {item item' : Item}
    (h : s.RelatedItems f f' item item') {o o' : Options} (ho : s.options o o') {w w' : Writer}
    (hw : s.writer w w') :
    AgreeUnless s.cut s.writer (lib.writeItem c enter f o.format item w)
      (lib'.writeItem c' enter' f' o'.format item' w') := by
  cases h with
  | value h => exact (s.render h ho).bind fun _ _ ht => .ok (ht w w' hw)
  | body hr hr' h =>
    rw [Library.writeItem_eq_of_entryOf? hr, Library.writeItem_eq_of_entryOf? hr']
    exact h.bind fun e e' he => henter he hw

variable (s) in
def RelatedNodes (enter enter' : Runner) (f f' : Frame) (node node' : Node Span) : Prop :=
  ∀ w w', s.writer w w' →
    AgreeUnless s.cut s.writer (lib.runNode c enter f w node) (lib'.runNode c' enter' f' w' node')

theorem relatedNodes_literal (text : String) (place place' : Span) :
    s.RelatedNodes enter enter' f f' (.literal text place) (.literal text place') :=
  fun _ _ h => .ok (s.write h _)

theorem runRegion (henter : s.Enters enter enter') {name name' : String}
    {body body' : Option (List (Node Span))}
    (h : Option.Rel s.entry (lib.regionEntry f name body) (lib'.regionEntry f' name' body')) {w w' : Writer}
    (hw : s.writer w w') :
    AgreeUnless s.cut s.writer (lib.runRegion enter f name body w)
      (lib'.runRegion enter' f' name' body' w') := by
  rw [Library.runRegion, Library.runRegion]
  generalize lib.regionEntry f name body = entry?, lib'.regionEntry f' name' body' = entry?' at h
  cases h with
  | none => exact .ok hw
  | some h => exact henter h hw

theorem relatedNodes_expression (henter : s.Enters enter enter') (hbalanced : ∀ entry, Balanced (enter entry))
    (hbalanced' : ∀ entry, Balanced (enter' entry)) {p p' : Primary Span}
    {targets targets' : List (Target Span)} {o o' : Options} {place place' : Span}
    (hp : AgreeUnless s.cut (s.RelatedOutcomes f f') (lib.primary f p) (lib'.primary f' p'))
    (ht : List.Forall₂ (s.RelatedTargets f f') targets targets') (ho : s.options o o') :
    s.RelatedNodes enter enter' f f' (.expression p targets o place) (.expression p' targets' o' place') := by
  intro w w' hw
  rw [Library.runNode, Library.runNode, Library.runExpression_eq, Library.runExpression_eq]
  refine (relatedOutcomes_outcome henter hp ht).bind fun outcome outcome' h => ?_
  refine s.elements ho (Library.writeItem_balanced hbalanced o.format)
    (Library.writeItem_balanced hbalanced' o'.format) (h.elements.imp fun x x' hx w w' hw => ?_) hw
  exact hx.writeItem henter ho hw

/-- Related nodes agree one after the other. -/
theorem runNodes {nodes nodes' : List (Node Span)}
    (h : List.Forall₂ (s.RelatedNodes enter enter' f f') nodes nodes') {w w' : Writer} (hw : s.writer w w') :
    AgreeUnless s.cut s.writer (lib.runNodes c enter f nodes w) (lib'.runNodes c' enter' f' nodes' w') :=
  AgreeUnless.foldlM (fun w w' _ _ hw hn => hn w w' hw) h hw

def equal (cut : Error → Prop) (entry : Entry → Entry → Prop) (hrenderers : lib.renderers = lib'.renderers) :
    Simulation lib lib' c c where
  cut := cut
  value := Eq
  writer := Eq
  entry := entry
  options := Eq
  refl _ := rfl
  eq_or_not_list := .inl
  empty := rfl
  text hw := by rw [hw]
  write hw cs := by rw [hw]
  render := by
    rintro v _ rfl o _ rfl
    rw [hrenderers]
    exact .rfl' (fun t w w' hw => by rw [hw]) _
  elements := by
    rintro o _ rfl r r' xs xs' - - hxs w _ rfl
    have hwritten := Writer.agree_writeElements (Library.layout c o)
      (hxs.imp fun x x' hx w => hx w w rfl) true (w.beginExpression o.anchor)
    exact hwritten.bind fun v v' hv => .ok (by rw [hv])

/-! ## The same templates -/

/-- The two libraries have the same templates, and related bodies have the same nodes in related scopes. -/
structure Parallel (s : Simulation lib lib' c c') (kept : Options → Options) : Prop where
  library : lib.Same kept lib'
  options : ∀ o o', kept o = kept o' → s.options o o'
  entry : s.entry = Entry.Related s.value (Node.Same kept)
  respect : Adaptors.Respect s.cut s.value lib.adaptors lib'.adaptors

namespace Parallel

variable {kept : Options → Options} (h : s.Parallel kept) (htemplate : f.template = f'.template)
  (hf : Scope.Related s.value f.scope f'.scope)

include h

theorem compiled (name : String) :
    AgreeUnless s.cut (Compiled.Related (Node.Same kept)) (lib.compiled name) (lib'.compiled name) :=
  .of_agree (h.library.compiled name)

include hf

theorem primary {p p' : Primary Span} (hp : p.map (fun _ => ()) = p'.map (fun _ => ())) :
    AgreeUnless s.cut (s.RelatedOutcomes f f') (lib.primary f p) (lib'.primary f' p') := by
  cases p with
  | path p =>
    cases p' with
    | path p' =>
      have hpath : (Argument.path p).map (fun _ => ()) = (Argument.path p').map (fun _ => ()) := by
        simpa [Primary.map, Argument.map] using hp
      exact relatedOutcomes_path (h.respect.argument hf s.refl hpath)
    | _ => cases hp
  | call name place args =>
    cases p' with
    | call name' place' args' =>
      simp only [Primary.map, Primary.call.injEq, true_and] at hp
      obtain ⟨rfl, hargs⟩ := hp
      refine relatedOutcomes_call ?_
      rw [h.entry]
      exact Library.callEntry_related s.refl h.respect hf (h.compiled name) hargs
    | _ => cases hp
  | function fn arg =>
    cases p' with
    | function fn' arg' =>
      simp only [Primary.map, Primary.function.injEq] at hp
      obtain ⟨rfl, harg⟩ := hp
      exact relatedOutcomes_function (h.respect.argument hf s.refl harg)
    | _ => cases hp

include htemplate

theorem target {target target' : Target Span}
    (ht : target.map (fun _ => ()) kept = target'.map (fun _ => ()) kept) :
    s.RelatedTargets f f' target target' := by
  intro v v' index hv
  rw [h.entry]
  cases target with
  | anonymous names body place =>
    cases target' with
    | anonymous names' body' place' =>
      simp only [Target.map, Target.anonymous.injEq, and_true] at ht
      obtain ⟨rfl, hbody⟩ := ht
      exact Library.targetEntry_anonymous_related s.refl hf htemplate names hbody place place' hv index
    | named name' place' => cases ht
  | named name place =>
    cases target' with
    | anonymous names' body' place' => cases ht
    | named name' place' =>
      simp only [Target.map, Target.named.injEq, and_true] at ht
      subst ht
      exact Library.targetEntry_named_related s.refl hf (h.compiled name) place place' hv index

theorem region {name : String} {body body' : Option (List (Node Span))}
    (hbody : Option.Rel (Node.Same kept) body body') :
    Option.Rel s.entry (lib.regionEntry f name body) (lib'.regionEntry f' name body') := by
  rw [h.entry]
  exact Library.regionEntry_related hf htemplate (h.library.override? f.template name) hbody

section
variable (hb : ∀ entry, Balanced (enter entry)) (hb' : ∀ entry, Balanced (enter' entry))
  (henter : s.Enters enter enter')
include hb hb' henter

theorem node {node node' : Node Span}
    (hnode : node.map (fun _ => ()) kept = node'.map (fun _ => ()) kept) :
    s.RelatedNodes enter enter' f f' node node' := by
  cases node with
  | literal text place =>
    cases node' with
    | literal text' place' =>
      cases hnode
      exact relatedNodes_literal text place place'
    | _ => cases hnode
  | slot name place =>
    cases node' with
    | slot name' place' =>
      cases hnode
      exact fun w w' hw => runRegion henter (h.region htemplate hf .none) hw
    | _ => cases hnode
  | region name body place =>
    cases node' with
    | region name' body' place' =>
      simp only [Node.map, Node.region.injEq, and_true] at hnode
      obtain ⟨rfl, hbody⟩ := hnode
      exact fun w w' hw => runRegion henter (h.region htemplate hf (.some hbody)) hw
    | _ => cases hnode
  | expression p targets o place =>
    cases node' with
    | expression p' targets' o' place' =>
      simp only [Node.map, Node.expression.injEq, and_true, Target.mapAll_eq] at hnode
      obtain ⟨hp, htargets, ho⟩ := hnode
      refine relatedNodes_expression henter hb hb' (h.primary hf hp) ?_ (h.options o o' ho)
      exact (forall₂_of_map_eq htargets).imp fun t t' ht => h.target htemplate hf ht
    | _ => cases hnode

/-- The same nodes agree on related writers. -/
theorem nodes {ns ns' : List (Node Span)} (hns : Node.Same kept ns ns') {w w' : Writer}
    (hw : s.writer w w') :
    AgreeUnless s.cut s.writer (lib.runNodes c enter f ns w) (lib'.runNodes c' enter' f' ns' w') := by
  rw [Node.Same, Node.mapAll_eq, Node.mapAll_eq] at hns
  exact runNodes ((forall₂_of_map_eq hns).imp fun n n' hn => h.node htemplate hf hb hb' henter hn) hw

end

omit htemplate hf

/-- Related bodies agree at any depth. -/
theorem nested (levels : Nat) : s.Enters (lib.nested c levels) (lib'.nested c' levels) := by
  induction levels with
  | zero =>
    intro e e' he w w' _
    rw [h.entry] at he
    rw [Library.nested, Library.nested, h.library.maxDepth, he.label]
    exact .error _
  | succ levels ih =>
    intro e e' he w w' hw
    rw [h.entry] at he
    rw [Library.nested, Library.nested]
    exact h.nodes he.template he.scope (Library.nested_balanced lib c levels)
      (Library.nested_balanced lib' c' levels) ih he.nodes hw

/-- The same template with related attributes, in two libraries. -/
theorem render {t t' : Compiled} (hname : t.name = t'.name) (hnodes : Node.Same kept t.nodes t'.nodes)
    {attributes attributes' : Store} (ha : Store.Related s.value attributes attributes') :
    AgreeUnless s.cut (fun text text' => ∃ w w', s.writer w w' ∧ text = w.text ∧ text' = w'.text)
      (lib.render c t attributes) (lib'.render c' t' attributes') := by
  have hscope : Scope.Related s.value (Frame.mk t.name [attributes]).scope
      (Frame.mk t'.name [attributes']).scope :=
    .cons ha .nil
  have hrun := h.nodes hname hscope (Library.nested_balanced lib c lib.maxDepth)
    (Library.nested_balanced lib' c' lib.maxDepth) (h.nested lib.maxDepth) hnodes s.empty
  rw [Library.render, Library.render, ← h.library.maxDepth]
  exact hrun.bind fun w w' hw => .ok ⟨w, w', hw, rfl, rfl⟩

end Parallel

end Simulation

/-- A library beside itself, where the first run may be cut off. -/
theorem Library.parallel_self (lib : Library) (c : RenderConfig) (cut : Error → Prop) :
    (Simulation.equal cut (Entry.Related Eq (Node.Same id)) rfl : Simulation lib lib c c).Parallel id where
  library := .refl id lib
  options _ _ ho := ho
  entry := rfl
  respect _ _ hv _ := hv ▸ .rfl' (fun _ => rfl) _

/-- What is written does not depend on the places of the nodes. -/
theorem Library.render_eq_of_same (lib : Library) (c : RenderConfig) {t t' : Compiled} (hname : t.name = t'.name)
    (hnodes : Node.Same id t.nodes t'.nodes) (attributes : Store) :
    lib.render c t attributes = lib.render c t' attributes := by
  have hparallel := lib.parallel_self c fun _ => False
  refine (hparallel.render hname hnodes (Store.related_refl (fun _ => rfl) attributes)).eq_of ?_
  rintro text text' ⟨w, _, rfl, rfl, rfl⟩
  rfl

end Stencil
