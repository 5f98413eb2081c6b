import Stencil.Instance
import Stencil.Proofs.Evaluation.Scopes
import Stencil.Proofs.Evaluation.Simulation
import Stencil.Proofs.Layout.Ink

/-!
# Layout and whitespace

The line width and the options `wrap` and `anchor` decide only about whitespace: with any others, a template
writes the same text up to blanks or fails with the same error (`Group.render_ink`). The two runs are
related by a simulation whose writers have the same ink. A text that was laid out by an earlier run can come
back as a value, so related values are equal or texts of the same ink. This is where renderers and adaptors
of the application have to be left out, for they could tell such texts apart.
-/

namespace Stencil

open Template (Compiled Node Options)
open Writer (Balanced SameInk)

/-! ## Values -/

/-- The values are equal, or texts of the same ink. -/
inductive Value.SameInk : Value → Value → Prop where
  | refl (v : Value) : SameInk v v
  | str {s s' : String} : ink s.toList = ink s'.toList → SameInk (.str s) (.str s')

namespace Value.SameInk

theorem eq_or_not_list {v v' : Value} (h : v.SameInk v') : v = v' ∨ (v.isList = false ∧ v'.isList = false) := by
  cases h with
  | refl v => exact .inl rfl
  | str _ => exact .inr ⟨rfl, rfl⟩

theorem ink_text {v v' : Value} (h : v.SameInk v') : ink v.text.toList = ink v'.text.toList := by
  cases h with
  | refl v => rfl
  | str h => simpa only [Value.text] using h

end Value.SameInk

theorem Renderers.render_empty (v : Value) (format : Option String) (l : Locale) :
    Renderers.render {} v format l = .ok v.text := by
  have hnone : ({} : Renderers).find? v = none := List.findSome?_eq_none_iff.2 fun _ _ => rfl
  rw [render, hnone]

namespace Adaptors

/-- Only the adaptors that a group has by itself are registered, for whatever types. -/
def BuiltIn (r : Adaptors) : Prop :=
  ∀ key a, r.get? key = some a → a = Adaptor.object ∨ a = Adaptor.aggregate

theorem builtIn_standard : BuiltIn standard := by
  intro key a h
  by_cases hany : key = .any
  · rw [hany, standard, Registry.get?_register_self] at h
    exact .inl (Option.some.inj h).symm
  · rw [standard, Registry.get?_register_of_ne hany] at h
    by_cases hkey : key = .aggregate
    · rw [hkey, Registry.get?_register_self] at h
      exact .inr (Option.some.inj h).symm
    · rw [Registry.get?_register_of_ne hkey] at h
      cases h

/-- A text has no properties. -/
theorem BuiltIn.property_str {r : Adaptors} (hr : r.BuiltIn) (s name : String) :
    r.property (.str s) name = .error (.noSuchProperty "string" name) := by
  rw [property]
  cases h : r.find? (.str s) with
  | none => rfl
  | some a =>
    obtain ⟨key, hkey⟩ := Registry.exists_get?_of_find? h
    rcases hr key a hkey with rfl | rfl
    · rfl
    · rfl

theorem BuiltIn.step_str {r : Adaptors} (hr : r.BuiltIn) (s : String) (segment : Template.Segment) :
    r.step (.str s) segment = .error (.noSuchProperty "string" segment.name) := by
  cases segment with
  | property name =>
    rw [step, mapProperty]
    · exact hr.property_str s name
    · simp
  | index n => exact hr.property_str s (toString n)

theorem BuiltIn.respect {r : Adaptors} (hr : r.BuiltIn) (cut : Error → Prop) :
    Adaptors.Respect cut Value.SameInk r r := by
  intro v v' h segment
  cases h with
  | refl v => exact .rfl' Value.SameInk.refl _
  | str h =>
    rw [hr.step_str, hr.step_str]
    exact .error _

end Adaptors

/-! ## Runs -/

namespace Library

variable {lib lib' : Library}

def inkSimulation (h : lib.Same Options.plain lib') (hrenderers : lib.renderers = {}) (c c' : RenderConfig) :
    Simulation lib lib' c c' where
  cut _ := False
  value := Value.SameInk
  writer := SameInk
  entry := Entry.Related Value.SameInk (Node.Same Options.plain)
  options o o' := o.plain = o'.plain
  refl := .refl
  eq_or_not_list := Value.SameInk.eq_or_not_list
  empty := SameInk.empty
  text hw := .str (by simpa [Writer.text] using hw.ink)
  write hw _ := hw.write rfl
  render {v v'} hv _ _ _ := by
    rw [← h.renderers, hrenderers, Renderers.render_empty, Renderers.render_empty]
    exact .ok fun w w' hw => hw.write hv.ink_text
  elements {o o'} ho r r' xs xs' hb hb' hxs w w' hw := by
    have hseparator : o.separator = o'.separator :=
      calc o.separator = o.plain.separator := rfl
        _ = o'.separator := by rw [ho]; rfl
    have hlayout : (layout c o).separator = (layout c' o').separator := by
      rw [layout, layout, hseparator]
    have hwritten := (hw.beginExpression o.anchor o'.anchor).writeElements hlayout hb hb' hxs true
    exact hwritten.bind fun v v' hv => .ok hv.endExpression

theorem inkSimulation_parallel (h : lib.Same Options.plain lib') (hrenderers : lib.renderers = {})
    (hadaptors : lib.adaptors.BuiltIn) (c c' : RenderConfig) :
    (inkSimulation h hrenderers c c').Parallel Options.plain where
  library := h
  options _ _ ho := ho
  entry := rfl
  respect := h.adaptors ▸ hadaptors.respect _

end Library

/-! ## Groups -/

/-- The definitions have the same parameters and the same trees but for `wrap` and `anchor`, or fail to parse
with the same error. -/
structure Definition.SamePlain (d d' : Definition) : Prop where
  params : d.params = d'.params
  tree : Agree (Node.Same Options.plain) d.tree d'.tree

/-- The groups have the same templates but for `wrap` and `anchor`, and the same set-up. -/
structure Group.SamePlain (g g' : Group) : Prop where
  templates : ∀ name, Option.Rel Definition.SamePlain (g.templates.lookup name) (g'.templates.lookup name)
  overrides : ∀ key, Option.Rel (fun t t' : Compiled => Node.Same Options.plain t.nodes t'.nodes)
    (g.overrides.lookup key) (g'.overrides.lookup key)
  adaptors : g.adaptors = g'.adaptors
  renderers : g.renderers = g'.renderers
  maxDepth : g.config.maxDepth = g'.config.maxDepth

theorem Group.SamePlain.library {g g' : Group} (h : g.SamePlain g') :
    g.library.Same Options.plain g'.library where
  compiled name := by
    have hname := h.templates name
    simp only [Group.library, Group.compiled]
    generalize g.templates.lookup name = d?, g'.templates.lookup name = d?' at hname
    cases hname with
    | none => exact .error _
    | @some d d' hd =>
      have htree := hd.tree
      simp only [Definition.compile]
      generalize d.tree = tree, d'.tree = tree' at htree
      cases htree with
      | ok hns => exact .ok ⟨rfl, hd.params, hns⟩
      | error e => exact .error _
      | cut _ he => exact he.elim
  override? template region := h.overrides (template, region)
  adaptors := h.adaptors
  renderers := h.renderers
  maxDepth := h.maxDepth

/-- **Layout directives only move whitespace.** Whatever the configuration and the options `wrap` and `anchor`
in the templates are changed to, a template comes to the same text up to blanks, or to the same error, if
values are rendered as their plain texts and read by the adaptors of the library only. -/
theorem Group.render_ink {g g' : Group} (h : g.SamePlain g') (hrenderers : g.renderers = {})
    (hadaptors : g.adaptors.BuiltIn) (c c' : RenderConfig) {t t' : Compiled} (hname : t.name = t'.name)
    (hnodes : Node.Same Options.plain t.nodes t'.nodes) (attributes : Store) :
    (g.render c t attributes).map (fun text => ink text.toList) =
      (g'.render c' t' attributes).map fun text => ink text.toList := by
  have hparallel := Library.inkSimulation_parallel h.library hrenderers hadaptors c c'
  refine (hparallel.render hname hnodes (Store.related_refl .refl attributes)).map_congr ?_
  rintro text text' ⟨w, w', hw, rfl, rfl⟩
  simpa [Writer.text] using hw.ink

/-- A list that is broken at the line width and anchored, against the same list on one line. -/
theorem Group.render_ink_list :
    let place : Span := ⟨0, 0⟩
    let attributes := Store.ofList [("xs", .list [.str "one", .str "two", .str "three"])]
    let t : Compiled := ⟨"list", none, [.literal "xs = " place, .expression (.path ⟨"xs", place, []⟩) []
      { separator := some ", ", wrap := some .lineWidth, anchor := true } place], {}, ""⟩
    let t' : Compiled := ⟨"list", none, [.literal "xs = " place, .expression (.path ⟨"xs", place, []⟩) []
      { separator := some ", " } place], {}, ""⟩
    ({} : Group).SamePlain {} ∧ ({} : Group).renderers = {} ∧ ({} : Group).adaptors.BuiltIn ∧
    t.name = t'.name ∧ Node.Same Options.plain t.nodes t'.nodes ∧
    ({} : Group).render { lineWidth := some 14 } t attributes = .ok "xs = one, two,\n     three" ∧
    (({} : Group).render {} t' attributes).map (fun text => ink text.toList) =
      .ok "xs=one,two,three".toList := by
  intro place attributes t t'
  have hg : ({} : Group).SamePlain {} := ⟨fun _ => .none, fun _ => .none, rfl, rfl, rfl⟩
  have hrender : ({} : Group).render { lineWidth := some 14 } t attributes =
      .ok "xs = one, two,\n     three" := by
    decide +kernel
  have hname : t.name = t'.name := rfl
  have hnodes : Node.Same Options.plain t.nodes t'.nodes := rfl
  refine ⟨hg, rfl, Adaptors.builtIn_standard, hname, hnodes, hrender, ?_⟩
  rw [← Group.render_ink hg rfl Adaptors.builtIn_standard { lineWidth := some 14 } {} hname hnodes, hrender]
  decide

end Stencil
