import Stencil.Proofs.Agreement
import Stencil.Proofs.Evaluation.Balanced

/-!
# How a run can fail

A run fails with an error of a handler, of a template that it looks up, or with one of the few that the engine
has of its own: an attribute that is not in scope, an element that a list has not, a wrong number of arguments,
nesting that is too deep. `Library.Raises` says of a kind of errors that it has all of these; then it has every
error of a run, which is shown for each part of the engine from its parts, and for bodies by induction on the
levels that are left (`Library.Raises.render`).
-/

namespace Stencil

open Template (Argument Compiled ListFunction Node Options Parameter Path Primary Segment Target)

/-- Elements fail as each of them does. -/
theorem Writer.writeElements_failsOnly {α ε : Type} {P : ε → Prop} {l : Layout}
    {render : α → Writer → Except ε Writer} {xs : List α} (h : ∀ x ∈ xs, ∀ w, FailsOnly P (render x w))
    (first : Bool) (w : Writer) : FailsOnly P (w.writeElements l render first xs) := by
  induction xs generalizing first w with
  | nil => exact .ok w
  | cons x xs ih =>
    have hrest := fun v => ih (fun y hy => h y (List.mem_cons_of_mem x hy)) false v
    rw [writeElements]
    refine (h x List.mem_cons_self _).bind fun child => ?_
    split
    · exact (h x List.mem_cons_self _).bind fun again => hrest _
    · exact hrest _

namespace Library

/-- The kind has every error that a run of the library can come upon. -/
structure Raises (lib : Library) (P : Error → Prop) : Prop where
  compiled : ∀ name, FailsOnly P (lib.compiled name)
  property : ∀ v name, FailsOnly P (lib.adaptors.property v name)
  renderer : ∀ v format l, FailsOnly P (lib.renderers.render v format l)
  noSuchAttribute : ∀ name, P (.noSuchAttribute name)
  noSuchProperty : ∀ owner property, P (.noSuchProperty owner property)
  argumentCount : ∀ name expected actual, P (.argumentCount name expected actual)
  recursionLimit : ∀ label, P (.recursionLimit lib.maxDepth label)

namespace Raises

variable {lib : Library} {P : Error → Prop}

/-! ## Paths and arguments -/

mutual

theorem mapProperty (h : lib.Raises P) (name : String) : ∀ v : Value, FailsOnly P (lib.adaptors.mapProperty name v)
  | .list items => by
    rw [Adaptors.mapProperty]
    exact (h.mapProperties name items).bind fun vs => .ok _
  | .bool _ | .int _ | .float _ | .str _ | .object _ | .aggregate _ => h.property _ name

theorem mapProperties (h : lib.Raises P) (name : String) :
    ∀ vs : List Value, FailsOnly P (lib.adaptors.mapProperties name vs)
  | [] => .ok []
  | v :: vs => by
    rw [Adaptors.mapProperties]
    exact (h.mapProperty name v).bind fun w => (h.mapProperties name vs).bind fun ws => .ok (w :: ws)

end

variable (h : lib.Raises P)
include h

theorem step (v : Value) (segment : Segment) : FailsOnly P (lib.adaptors.step v segment) := by
  rw [Adaptors.step.eq_def]
  split
  · exact h.mapProperty _ v
  · split
    · split
      · exact .ok _
      · exact .error (h.noSuchProperty _ _)
    · exact h.property v _

theorem resolve (s : Scope) (p : Path Span) : FailsOnly P (lib.adaptors.resolve s p) := by
  rw [Adaptors.resolve]
  split
  · exact .foldlM (fun v segment _ => h.step v segment) _
  · exact .error (h.noSuchAttribute _)

theorem argument (s : Scope) (a : Argument Span) : FailsOnly P (lib.adaptors.argument s a) := by
  cases a with
  | path p => exact h.resolve s p
  | literal text => exact .ok _

/-! ## Bodies one level deeper -/

theorem bindArguments (f : Frame) (name : String) (params : List Parameter) (args : List (Argument Span)) :
    FailsOnly P (lib.bindArguments f name params args) := by
  rw [Library.bindArguments]
  dsimp only
  split
  · exact .ok _
  · split
    · exact .error (h.argumentCount _ _ _)
    · exact .foldlM (fun s x _ => (h.argument f.scope x.2).bind fun v => .ok _) _

theorem callEntry (f : Frame) (name : String) (args : List (Argument Span)) :
    FailsOnly P (lib.callEntry f name args) :=
  (h.compiled name).bind fun callee => (h.bindArguments f name callee.parameters args).bind fun _ => .ok _

theorem targetEntry (f : Frame) (target : Target Span) (element : Value) (index : Nat) :
    FailsOnly P (lib.targetEntry f target element index) := by
  cases target with
  | anonymous names body place => exact .ok _
  | named name place => exact (h.compiled name).bind fun callee => .ok _

/-! ## One level -/

section
variable {c : RenderConfig} {enter : Runner} (henter : ∀ entry w, FailsOnly P (enter entry w)) (f : Frame)
include henter

theorem writeItem (format : Option String) (item : Item) (w : Writer) :
    FailsOnly P (lib.writeItem c enter f format item w) := by
  cases item with
  | value v => exact (h.renderer v format c.locale).bind fun text => .ok _
  | call name args => exact (h.callEntry f name args).bind fun entry => henter entry w
  | apply target element index => exact (h.targetEntry f target element index).bind fun entry => henter entry w

theorem force (item : Item) : FailsOnly P (lib.force c enter f item) := by
  cases item with
  | value v => exact .ok v
  | call name args => exact (h.writeItem henter f none (.call name args) .empty).bind fun w => .ok _
  | apply target element index =>
    exact (h.writeItem henter f none (.apply target element index) .empty).bind fun w => .ok _

theorem applyTarget (outcome : Outcome) (target : Target Span) :
    FailsOnly P (lib.applyTarget c enter f outcome target) := by
  cases outcome with
  | one item => exact (h.force henter f item).bind fun v => .ok _
  | many items => exact (FailsOnly.mapM fun item _ => h.force henter f item).bind fun vs => .ok _

omit henter in
theorem primary (p : Primary Span) : FailsOnly P (lib.primary f p) := by
  cases p with
  | path p => exact (h.resolve f.scope p).bind fun v => .ok _
  | call name place args => exact .ok _
  | function function arg => exact (h.argument f.scope arg).bind fun v => .ok _

theorem runExpression (p : Primary Span) (targets : List (Target Span)) (o : Options) (w : Writer) :
    FailsOnly P (lib.runExpression c enter f p targets o w) := by
  refine (h.primary f p).bind fun start => ?_
  refine (FailsOnly.foldlM (fun outcome target _ => h.applyTarget henter f outcome target) start).bind fun outcome => ?_
  refine FailsOnly.bind ?_ fun written => .ok _
  exact Writer.writeElements_failsOnly (fun item _ w => h.writeItem henter f o.format item w) true _

omit h in
theorem runRegion (name : String) (body : Option (List (Node Span))) (w : Writer) :
    FailsOnly P (lib.runRegion enter f name body w) := by
  rw [Library.runRegion]
  split
  · exact henter _ w
  · exact .ok w

theorem runNode (node : Node Span) (w : Writer) : FailsOnly P (lib.runNode c enter f w node) := by
  cases node with
  | literal text place => exact .ok _
  | slot name place => exact runRegion henter f name none w
  | region name body place => exact runRegion henter f name (some body) w
  | expression p targets o place => exact h.runExpression henter f p targets o w

theorem runNodes (nodes : List (Node Span)) (w : Writer) : FailsOnly P (lib.runNodes c enter f nodes w) :=
  .foldlM (fun w node _ => h.runNode henter f node w) w

end

/-! ## All levels -/

theorem nested (c : RenderConfig) (levels : Nat) (entry : Entry) (w : Writer) :
    FailsOnly P (lib.nested c levels entry w) := by
  induction levels generalizing entry w with
  | zero => exact .error (h.recursionLimit entry.label)
  | succ levels ih => exact h.runNodes ih entry.frame entry.nodes w

/-- A run fails with an error of a handler, of a template that it looks up, or of the engine. -/
theorem render (c : RenderConfig) (t : Compiled) (attributes : Store) :
    FailsOnly P (lib.render c t attributes) :=
  (h.runNodes (h.nested c lib.maxDepth) ⟨t.name, [attributes]⟩ t.nodes .empty).bind fun _ => .ok _

end Raises
end Library
end Stencil
