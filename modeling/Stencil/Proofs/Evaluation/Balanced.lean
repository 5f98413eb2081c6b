import Stencil.Evaluation.Run
import Stencil.Proofs.Layout.Balanced

/-!
# Runs are balanced programs

An expression is run in two parts: first it is found out what there is to write (`Library.outcome`), which
depends on no writer, then its elements are written (`runExpression_eq`). So everything that a run does to
its writer is a balanced program (`nested_balanced`, `runNodes_balanced`).
-/

namespace Stencil

open Template (Node Options Primary Target)
open Writer (Balanced)

namespace Library

def outcome (lib : Library) (c : RenderConfig) (enter : Runner) (f : Frame) (p : Primary Span)
    (targets : List (Target Span)) : Except Error Outcome := do
  targets.foldlM (lib.applyTarget c enter f) (← lib.primary f p)

/-- The body that an item runs. A value runs none. -/
def entryOf? (lib : Library) (f : Frame) : Item → Option (Except Error Entry)
  | .value _ => none
  | .call name args => some (lib.callEntry f name args)
  | .apply target element index => some (lib.targetEntry f target element index)

section
variable {lib : Library} {c : RenderConfig} {enter : Runner} {f : Frame}

theorem runExpression_eq (p : Primary Span) (targets : List (Target Span)) (o : Options) (w : Writer) :
    lib.runExpression c enter f p targets o w = (do
      let outcome ← lib.outcome c enter f p targets
      return (← (w.beginExpression o.anchor).writeElements (layout c o)
        (lib.writeItem c enter f o.format) true outcome.elements).endExpression) := by
  simp only [runExpression, outcome, bind_assoc]

theorem eq_value_of_entryOf?_eq_none {item : Item} (h : lib.entryOf? f item = none) :
    ∃ v, item = .value v := by
  cases item with
  | value v => exact ⟨v, rfl⟩
  | call name args => cases h
  | apply target element index => cases h

theorem writeItem_eq_of_entryOf? {item : Item} {entry : Except Error Entry}
    (h : lib.entryOf? f item = some entry) (format : Option String) (w : Writer) :
    lib.writeItem c enter f format item w = (do enter (← entry) w) := by
  cases item with
  | value v => cases h
  | call name args => cases h; rfl
  | apply target element index => cases h; rfl

theorem force_eq_of_entryOf? {item : Item} {entry : Except Error Entry}
    (h : lib.entryOf? f item = some entry) :
    lib.force c enter f item = (do return .str (← enter (← entry) .empty).text) := by
  have hw : lib.writeItem c enter f none item .empty = (do enter (← entry) .empty) :=
    writeItem_eq_of_entryOf? h none .empty
  cases item with
  | value v => cases h
  | call name args => rw [force, hw, bind_assoc]; simp
  | apply target element index => rw [force, hw, bind_assoc]; simp

theorem writeItem_balanced (h : ∀ entry, Balanced (enter entry)) (format : Option String) (item : Item) :
    Balanced (lib.writeItem c enter f format item) := by
  cases hi : lib.entryOf? f item with
  | none =>
    obtain ⟨v, rfl⟩ := eq_value_of_entryOf?_eq_none hi
    cases hv : lib.renderers.render v format c.locale with
    | error e =>
      have : lib.writeItem c enter f format (.value v) = fun _ => .error e := by
        funext w
        rw [writeItem, hv]
        rfl
      rw [this]
      exact .fail e
    | ok text =>
      have : lib.writeItem c enter f format (.value v) = fun w => .ok (w.write text.toList) := by
        funext w
        rw [writeItem, hv]
        rfl
      rw [this]
      exact .write _
  | some entry =>
    have hw : lib.writeItem c enter f format item = fun w => (do enter (← entry) w) :=
      funext (writeItem_eq_of_entryOf? hi format)
    rw [hw]
    cases entry with
    | error e => exact .fail e
    | ok entry => exact h entry

theorem runExpression_balanced (h : ∀ entry, Balanced (enter entry)) (p : Primary Span)
    (targets : List (Target Span)) (o : Options) : Balanced (lib.runExpression c enter f p targets o) := by
  rw [funext (runExpression_eq p targets o)]
  cases lib.outcome c enter f p targets with
  | error e => exact .fail e
  | ok outcome => exact .expression o.anchor (.elements _ fun item _ => writeItem_balanced h _ item)

theorem runRegion_balanced (h : ∀ entry, Balanced (enter entry)) (name : String)
    (body : Option (List (Node Span))) : Balanced (lib.runRegion enter f name body) := by
  unfold runRegion
  cases lib.regionEntry f name body with
  | none => exact .skip
  | some entry => exact h entry

theorem runNode_balanced (h : ∀ entry, Balanced (enter entry)) (node : Node Span) :
    Balanced fun w => lib.runNode c enter f w node := by
  cases node with
  | literal text _ => exact .write _
  | slot name _ => exact runRegion_balanced h name none
  | region name body _ => exact runRegion_balanced h name (some body)
  | expression p targets o _ => exact runExpression_balanced h p targets o

theorem runNodes_balanced (h : ∀ entry, Balanced (enter entry)) (nodes : List (Node Span)) :
    Balanced (lib.runNodes c enter f nodes) := by
  induction nodes with
  | nil => exact .skip
  | cons node nodes ih => exact .andThen (runNode_balanced h node) ih

end

/-- A body that runs any number of levels deeper is a balanced program. -/
theorem nested_balanced (lib : Library) (c : RenderConfig) (levels : Nat) (entry : Entry) :
    Balanced (lib.nested c levels entry) := by
  induction levels generalizing entry with
  | zero => exact .fail _
  | succ levels ih => exact runNodes_balanced ih entry.nodes

end Library

end Stencil
