import Stencil.Proofs.Evaluation.Leaves

/-!
# The first element

The first element of a list can be had in two ways: by the function `first` and by the index zero of a path. Both find
the same value, and what is written depends only on the elements that an expression comes to
(`Library.runNode_eq_of_elements`). So both write the same if no target is applied, or if the element is no list. They
part at targets for a list in a list: the function hands it on as one item, to which a target is applied once, as to the
element of a list of one; the path takes it apart first, and the target is applied to each of its elements
(`Library.runNodes_first_list`). Main statement: `Library.runNodes_first`.
-/

namespace Stencil

open Template (Node Options Path Primary Segment Target)

/-- A longer path goes on from where the shorter one comes to. -/
theorem Adaptors.resolve_append {σ : Type} {r : Adaptors} {s : Scope} {p : Path σ} {v : Value}
    (h : r.resolve s p = .ok v) (segments : List Segment) :
    r.resolve s { p with segments := p.segments ++ segments } = segments.foldlM r.step v := by
  rw [resolve] at h ⊢
  cases hroot : s.lookup p.root with
  | none =>
    rw [hroot] at h
    cases h
  | some u =>
    rw [hroot] at h
    simp only [List.foldlM_append, h]
    rfl

/-- The path to the first element of what a path comes to. -/
def Template.Path.head {σ : Type} (p : Path σ) : Path σ :=
  { p with segments := p.segments ++ [.index 0] }

namespace Library

section
variable {lib : Library} {c : RenderConfig} {enter : Runner} {f : Frame}

/-! ## Expressions with the same elements -/

/-- What an expression writes depends on the elements that it comes to. -/
theorem runNode_eq_of_elements {p p' : Primary Span} {targets targets' : List (Target Span)}
    (h : (lib.outcome c enter f p targets).map Outcome.elements =
      (lib.outcome c enter f p' targets').map Outcome.elements) (o : Options) (place place' : Span) (w : Writer) :
    lib.runNode c enter f w (.expression p targets o place) =
      lib.runNode c enter f w (.expression p' targets' o place') := by
  rw [runNode, runNode, runExpression_eq, runExpression_eq]
  generalize lib.outcome c enter f p targets = outcome, lib.outcome c enter f p' targets' = outcome' at h
  cases outcome with
  | error e =>
    cases outcome' with
    | error e' => cases h; rfl
    | ok _ => cases h
  | ok outcome =>
    cases outcome' with
    | error _ => cases h
    | ok outcome' =>
      have helements : outcome.elements = outcome'.elements := Except.ok.inj h
      simp only [bind, Except.bind, helements]

/-- Targets make no difference between an item and a list of it. -/
theorem foldlM_applyTarget_one (item : Item) (targets : List (Target Span)) :
    (targets.foldlM (lib.applyTarget c enter f) (.one item)).map Outcome.elements =
      (targets.foldlM (lib.applyTarget c enter f) (.many [item])).map Outcome.elements := by
  induction targets generalizing item with
  | nil => exact congrArg Except.ok (List.append_nil _).symm
  | cons target targets ih =>
    rw [List.foldlM_cons, List.foldlM_cons, applyTarget, applyTarget, List.mapM_cons, List.mapM_nil]
    cases lib.force c enter f item with
    | error e => rfl
    | ok v => exact ih (.apply target v 0)

/-- Nodes can be replaced where they are run by any writer alike. -/
theorem runNodes_replace {node node' : Node Span}
    (h : ∀ w, lib.runNode c enter f w node = lib.runNode c enter f w node') (before after : List (Node Span))
    (w : Writer) :
    lib.runNodes c enter f (before ++ [node] ++ after) w = lib.runNodes c enter f (before ++ [node'] ++ after) w := by
  simp only [runNodes, List.foldlM_append, List.foldlM_cons, h]

/-! ## Function and index -/

variable {path : Path Span} {x : Value} {xs : List Value}

theorem resolve_head (hpath : lib.adaptors.resolve f.scope path = .ok (.list (x :: xs))) :
    lib.adaptors.resolve f.scope path.head = .ok x :=
  Adaptors.resolve_append hpath [.index 0]

theorem primary_path {v : Value} (hpath : lib.adaptors.resolve f.scope path = .ok v) :
    lib.primary f (.path path) = .ok (.ofValue v) := by
  rw [primary, hpath]
  rfl

/-- The function finds the element as one item, be it a list or not. -/
theorem primary_first (hpath : lib.adaptors.resolve f.scope path = .ok (.list (x :: xs))) :
    lib.primary f (.function .first (.path path)) = .ok (.one (.value x)) :=
  primary_function hpath .first

end

/-- **The first element is the element at index zero.** Of a list with an element, the function and the index write the
same, wherever they stand and whatever the options: they fail with the same error or lead to the same writer, if there
are no targets or the element is no list. Through any targets, the function writes what a path writes that comes to a
list of this one element: the first target has the element as a whole, at the index zero. -/
theorem runNodes_first (lib : Library) (c : RenderConfig) (levels : Nat) {f : Frame} {path : Path Span} {x : Value}
    {xs : List Value} (hpath : lib.adaptors.resolve f.scope path = .ok (.list (x :: xs)))
    (targets : List (Target Span)) (o : Options) (before after : List (Node Span)) (place place' : Span)
    (w : Writer) :
    let run (p : Primary Span) (place : Span) :=
      lib.runNodes c (lib.nested c levels) f (before ++ [.expression p targets o place] ++ after) w
    let first : Primary Span := .function .first (.path path)
    lib.adaptors.resolve f.scope path.head = .ok x ∧
    (targets = [] ∨ x.isList = false → run first place = run (.path path.head) place') ∧
    ∀ single : Path Span, lib.adaptors.resolve f.scope single = .ok (.list [x]) →
      run first place = run (.path single) place' := by
  intro run first
  have hfirst : lib.primary f first = .ok (.one (.value x)) := primary_first hpath
  have hhead : lib.primary f (.path path.head) = .ok (.ofValue x) := primary_path (resolve_head hpath)
  have hrun : ∀ p, (lib.outcome c (lib.nested c levels) f first targets).map Outcome.elements =
      (lib.outcome c (lib.nested c levels) f p targets).map Outcome.elements → run first place = run p place' :=
    fun p h => runNodes_replace (runNode_eq_of_elements h o place place') before after w
  refine ⟨resolve_head hpath, fun h => hrun _ ?_, fun single hsingle => hrun _ ?_⟩
  · rw [outcome, outcome, hfirst, hhead]
    rcases h with rfl | hx
    · -- a list is taken apart when it is written, if not before
      exact congrArg Except.ok
        ((Outcome.elements_of_value (.inr rfl)).trans (Outcome.elements_of_value (.inl rfl)).symm)
    · cases x with
      | list ys => cases hx
      | _ => rfl
  · rw [outcome, outcome, hfirst, primary_path hsingle]
    exact foldlM_applyTarget_one (.value x) targets

/-- The text in front of a list, through two targets, and a list of it. -/
theorem runNodes_first_word :
    let place : Span := ⟨0, 0⟩
    let read (name : String) : Node Span := .expression (.path ⟨name, place, []⟩) [] {} place
    let f : Frame := ⟨"page", [.ofList [("xs", .list [.str "a", .list [.str "b"]]), ("one", .list [.str "a"])]]⟩
    let marked : Target Span := .anonymous ["x"] [read "x", .literal "!" place] place
    let counted : Target Span := .anonymous ["y", "n"] [read "n", .literal ":" place, read "y"] place
    let lib := ({} : Group).library
    let path : Path Span := ⟨"xs", place, []⟩
    let run (p : Primary Span) := lib.runNodes {} (lib.nested {} 2) f
      ([.literal "(" place] ++ [.expression p [marked, counted] {} place] ++ [.literal ")" place]) .empty
    lib.adaptors.resolve f.scope path = .ok (.list [.str "a", .list [.str "b"]]) ∧
    lib.adaptors.resolve f.scope ⟨"one", place, []⟩ = .ok (.list [.str "a"]) ∧
    (run (.function .first (.path path))).map Writer.text = .ok "(1:a!)" ∧
    run (.function .first (.path path)) = run (.path path.head) ∧
    run (.function .first (.path path)) = run (.path ⟨"one", place, []⟩) := by
  intro place read f marked counted lib path run
  have hpath : lib.adaptors.resolve f.scope path = .ok (.list [.str "a", .list [.str "b"]]) := rfl
  have hone : lib.adaptors.resolve f.scope ⟨"one", place, []⟩ = .ok (.list [.str "a"]) := rfl
  obtain ⟨-, hhead, hsingle⟩ := runNodes_first lib {} 2 hpath [marked, counted] {} [.literal "(" place]
    [.literal ")" place] place place .empty
  exact ⟨hpath, hone, by decide +kernel, hhead (.inr rfl), hsingle ⟨"one", place, []⟩ hone⟩

/-- A target is applied once to a list that the function finds, and to each of its elements if a path does. -/
theorem runNodes_first_list :
    let place : Span := ⟨0, 0⟩
    let xs : Value := .list [.list [.str "a", .str "b"], .str "c"]
    let f : Frame := ⟨"page", [.ofList [("xs", xs)]]⟩
    let boxed : Target Span := .anonymous ["x"]
      [.literal "[" place, .expression (.path ⟨"x", place, []⟩) [] {} place, .literal "]" place] place
    let lib := ({} : Group).library
    let path : Path Span := ⟨"xs", place, []⟩
    let run (p : Primary Span) :=
      lib.runNodes {} (lib.nested {} 1) f ([] ++ [.expression p [boxed] {} place] ++ []) .empty
    lib.adaptors.resolve f.scope path = .ok xs ∧
    (run (.function .first (.path path))).map Writer.text = .ok "[ab]" ∧
    (run (.path path.head)).map Writer.text = .ok "[a][b]" ∧
    run (.function .first (.path path)) ≠ run (.path path.head) := by
  intro place xs f boxed lib path run
  have hfirst : (run (.function .first (.path path))).map Writer.text = .ok "[ab]" := by decide +kernel
  have hhead : (run (.path path.head)).map Writer.text = .ok "[a][b]" := by decide +kernel
  refine ⟨rfl, hfirst, hhead, fun hsame => ?_⟩
  rw [hsame, hhead] at hfirst
  exact absurd hfirst (by decide)

end Library
end Stencil
