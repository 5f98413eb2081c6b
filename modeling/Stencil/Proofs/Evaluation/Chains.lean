import Stencil.Instance
import Stencil.Proofs.Evaluation.Errors
import Stencil.Proofs.Evaluation.Scopes
import Stencil.Proofs.Layout.Wrapping

/-!
# Chains of targets

Targets one after the other are applied to a list target by target: the whole list goes through the first one,
the texts that come out of it go through the second one, and so on, and the last one is run where its output
stands. An element meets no other element on the way. So the list is as good as taken apart before the first
target (`Library.outcome_of_list`): every element goes through the chain on its own, with its place in the list,
and what it comes to is written by the last target. Main statement: `Library.runNode_chain`.
-/

namespace Stencil

open Template (Node Options Primary Target)
open Writer (Balanced Placed placed)

/-! ## Steps for all elements -/

section
variable {ε α τ : Type} {step : τ → α → Except ε α} {ts : List τ} {xs ys : List α}

/-- Steps that are taken one by one for all elements are taken of every element on its own. -/
theorem foldlM_mapM_eq_ok_iff :
    ts.foldlM (fun xs t => xs.mapM (step t)) xs = .ok ys ↔
      List.Forall₂ (fun x y => ts.foldlM (fun x t => step t x) x = .ok y) xs ys := by
  induction ts generalizing xs with
  | nil =>
    have hsame : List.Forall₂ (fun x y : α => (.ok x : Except ε α) = .ok y) xs ys ↔ xs = ys := by
      simp only [Except.ok.injEq, List.forall₂_eq_eq_eq]
    rw [List.foldlM_nil]
    exact (Except.ok.injEq ..).to_iff.trans hsame.symm
  | cons t ts ih =>
    simp only [List.foldlM_cons, bind_eq_ok, mapM_eq_ok_iff, forall₂_exists_iff, ih]

/-- If a step fails for an element, the steps fail for some element on its own, with the same error. -/
theorem foldlM_mapM_failsOnly :
    FailsOnly (fun e => ∃ x ∈ xs, ts.foldlM (fun x t => step t x) x = .error e)
      (ts.foldlM (fun xs t => xs.mapM (step t)) xs) := by
  induction ts generalizing xs with
  | nil => exact .ok xs
  | cons t ts ih =>
    rw [List.foldlM_cons]
    refine .bind_of_ok (.mapM fun x hx e he => ⟨x, hx, by rw [List.foldlM_cons, he]; rfl⟩) fun ys hys e he => ?_
    obtain ⟨y, hy, hrest⟩ := ih e he
    obtain ⟨x, hx, hstep⟩ := exists_mem_of_forall₂ (mapM_eq_ok_iff.1 hys) hy
    exact ⟨x, hx, by rw [List.foldlM_cons, hstep]; exact hrest⟩

/-- Elements with their places keep their places. -/
theorem mapM_zipIdx {β γ : Type} (g : β × Nat → Except ε γ) (xs : List β) (n : Nat) :
    (xs.zipIdx n).mapM (fun x => do return (← g x, x.2)) = ((xs.zipIdx n).mapM g).map (·.zipIdx n) := by
  induction xs generalizing n with
  | nil => rfl
  | cons x xs ih =>
    rw [List.zipIdx_cons, List.mapM_cons, List.mapM_cons, ih]
    cases g (x, n) with
    | error e => rfl
    | ok y => cases (xs.zipIdx (n + 1)).mapM g <;> rfl

end

namespace Library

/-! ## Elements of a list -/

section
variable (lib : Library) (c : RenderConfig) (enter : Runner) (f : Frame)

/-- What a chain of targets makes of a value at an index: the output of a target, on a writer of its own, is what
the next one is applied to. -/
def chain (targets : List (Target Span)) (index : Nat) (v : Value) : Except Error Value :=
  targets.foldlM (fun v target => lib.force c enter f (.apply target v index)) v

/-- Writes what a target makes of a value at an index. -/
def writeApplied (target : Target Span) (x : Value × Nat) (w : Writer) : Except Error Writer := do
  enter (← lib.targetEntry f target x.1 x.2) w

/-- A target for an element with its place in the list. -/
def chainStep (target : Target Span) (x : Value × Nat) : Except Error (Value × Nat) := do
  return (← lib.force c enter f (.apply target x.1 x.2), x.2)

variable {lib c enter f}

theorem foldlM_chainStep (targets : List (Target Span)) (x : Value × Nat) :
    targets.foldlM (fun x target => lib.chainStep c enter f target x) x =
      (lib.chain c enter f targets x.2 x.1).map (·, x.2) := by
  induction targets generalizing x with
  | nil => rfl
  | cons target targets ih =>
    rw [chain, List.foldlM_cons, List.foldlM_cons, chainStep]
    cases lib.force c enter f (.apply target x.1 x.2) with
    | error e => rfl
    | ok v => exact ih (v, x.2)

theorem mapM_force_value (xs : List Value) : (xs.map .value).mapM (lib.force c enter f) = .ok xs := by
  rw [mapM_eq_ok_iff, List.forall₂_map_left_iff]
  exact List.forall₂_same.2 fun _ _ => rfl

/-- Elements go through a chain on their own, and keep their places. -/
theorem foldlM_chainStep_eq_ok_iff {targets : List (Target Span)} {xs ys : List (Value × Nat)} :
    targets.foldlM (fun xs target => xs.mapM (lib.chainStep c enter f target)) xs = .ok ys ↔
      List.Forall₂ (fun x y => lib.chain c enter f targets x.2 x.1 = .ok y.1 ∧ y.2 = x.2) xs ys := by
  have helement : ∀ x y : Value × Nat, targets.foldlM (fun x target => lib.chainStep c enter f target x) x = .ok y ↔
      lib.chain c enter f targets x.2 x.1 = .ok y.1 ∧ y.2 = x.2 := by
    intro x y
    rw [foldlM_chainStep, map_eq_ok]
    constructor
    · rintro ⟨v, hv, rfl⟩
      exact ⟨hv, rfl⟩
    · rintro ⟨hv, hplace⟩
      exact ⟨y.1, hv, Prod.ext rfl hplace.symm⟩
  simp only [foldlM_mapM_eq_ok_iff, helement]

theorem foldlM_chainStep_failsOnly (targets : List (Target Span)) (xs : List (Value × Nat)) :
    FailsOnly (fun e => ∃ x ∈ xs, lib.chain c enter f targets x.2 x.1 = .error e)
      (targets.foldlM (fun xs target => xs.mapM (lib.chainStep c enter f target)) xs) := by
  intro e he
  obtain ⟨x, hx, herror⟩ := foldlM_mapM_failsOnly e he
  rw [foldlM_chainStep] at herror
  exact ⟨x, hx, map_eq_error.1 herror⟩

/-- A chain of targets takes a list apart into its elements with their places. -/
theorem foldlM_applyTarget (items : List Item) (targets : List (Target Span)) (last : Target Span) :
    (targets ++ [last]).foldlM (lib.applyTarget c enter f) (.many items) = (do
      let xs ← items.mapM (lib.force c enter f)
      let ys ← targets.foldlM (fun xs target => xs.mapM (lib.chainStep c enter f target)) xs.zipIdx
      return .many (ys.map fun y => .apply last y.1 y.2)) := by
  have hplaces : ∀ (target : Target Span) (xs : List Value),
      xs.mapIdx (fun index v => Item.apply target v index) = xs.zipIdx.map fun x => .apply target x.1 x.2 :=
    fun target xs => List.mapIdx_eq_zipIdx_map
  induction targets generalizing items with
  | nil =>
    rw [List.nil_append, List.foldlM_cons, applyTarget]
    cases items.mapM (lib.force c enter f) with
    | error e => rfl
    | ok xs => exact congrArg (fun items => Except.ok (Outcome.many items)) (hplaces last xs)
  | cons target targets ih =>
    rw [List.cons_append, List.foldlM_cons, applyTarget]
    cases items.mapM (lib.force c enter f) with
    | error e => rfl
    | ok xs =>
      have hstep : xs.zipIdx.mapM (lib.chainStep c enter f target) =
          ((xs.zipIdx.map fun x => Item.apply target x.1 x.2).mapM (lib.force c enter f)).map (·.zipIdx) := by
        rw [List.mapM_map]
        exact mapM_zipIdx (fun x => lib.force c enter f (.apply target x.1 x.2)) xs 0
      refine (ih (xs.mapIdx fun index v => .apply target v index)).trans ?_
      simp only [hplaces, List.foldlM_cons, bind, Except.bind, hstep]
      cases (xs.zipIdx.map fun x => Item.apply target x.1 x.2).mapM (lib.force c enter f) <;> rfl

/-- A list that goes through targets comes to one item for each of its elements, in order. -/
theorem outcome_of_list {p : Primary Span} {xs : List Value} (hp : lib.primary f p = .ok (.ofValue (.list xs)))
    (targets : List (Target Span)) (last : Target Span) :
    lib.outcome c enter f p (targets ++ [last]) = (do
      let ys ← targets.foldlM (fun xs target => xs.mapM (lib.chainStep c enter f target)) xs.zipIdx
      return .many (ys.map fun y => .apply last y.1 y.2)) := by
  rw [outcome, hp]
  refine (foldlM_applyTarget (xs.map .value) targets last).trans ?_
  rw [mapM_force_value]
  rfl

/-- The expression writes the items with the last target. -/
theorem runNode_chain_eq {p : Primary Span} {xs : List Value} (hp : lib.primary f p = .ok (.ofValue (.list xs)))
    (targets : List (Target Span)) (last : Target Span) (o : Options) (place : Span) (w : Writer) :
    lib.runNode c enter f w (.expression p (targets ++ [last]) o place) = (do
      let ys ← targets.foldlM (fun xs target => xs.mapM (lib.chainStep c enter f target)) xs.zipIdx
      return (← (w.beginExpression o.anchor).writeElements (layout c o) (lib.writeApplied enter f last) true
        ys).endExpression) := by
  rw [runNode, runExpression_eq, outcome_of_list hp]
  cases targets.foldlM (fun xs target => xs.mapM (lib.chainStep c enter f target)) xs.zipIdx with
  | error e => rfl
  | ok ys =>
    have hitems : (Outcome.many (ys.map fun y => .apply last y.1 y.2)).elements =
        ys.map fun y => .apply last y.1 y.2 := by
      rw [Outcome.elements, List.flatMap_map]
      exact List.flatMap_pure_eq_map (fun y : Value × Nat => Item.apply last y.1 y.2) ys
    have hwritten : (w.beginExpression o.anchor).writeElements (layout c o) (lib.writeItem c enter f o.format) true
        (ys.map fun y => .apply last y.1 y.2) =
        (w.beginExpression o.anchor).writeElements (layout c o) (lib.writeApplied enter f last) true ys :=
      Writer.writeElements_map (layout c o) (fun _ _ => rfl) ys true _
    simp only [bind, Except.bind, pure, Except.pure, hitems, hwritten]

theorem writeApplied_balanced (h : ∀ entry, Balanced (enter entry)) (target : Target Span) (x : Value × Nat) :
    Balanced (lib.writeApplied enter f target x) := by
  have hitem : Balanced (lib.writeItem {} enter f none (.apply target x.1 x.2)) := writeItem_balanced h none _
  exact hitem

/-- Writing what chains come to fails as a chain or the last target does for one of the elements. -/
theorem writeChain_failsOnly (targets : List (Target Span)) (last : Target Span) (xs : List (Value × Nat)) (l : Layout)
    (w : Writer) :
    FailsOnly (fun e => ∃ x ∈ xs, lib.chain c enter f targets x.2 x.1 = .error e ∨
        ∃ v u, lib.chain c enter f targets x.2 x.1 = .ok v ∧ lib.writeApplied enter f last (v, x.2) u = .error e) (do
      let ys ← targets.foldlM (fun xs target => xs.mapM (lib.chainStep c enter f target)) xs
      return (← w.writeElements l (lib.writeApplied enter f last) true ys).endExpression) := by
  refine FailsOnly.bind_of_ok (fun e he => ?_) fun ys hys => ?_
  · obtain ⟨x, hx, hchain⟩ := foldlM_chainStep_failsOnly targets xs e he
    exact ⟨x, hx, .inl hchain⟩
  · refine FailsOnly.bind (Writer.writeElements_failsOnly (fun y hy u e he => ?_) true w) fun _ => .ok _
    obtain ⟨x, hx, hv, hplace⟩ := exists_mem_of_forall₂ (foldlM_chainStep_eq_ok_iff.1 hys) hy
    exact ⟨x, hx, .inr ⟨y.1, u, hv, hplace ▸ he⟩⟩

/-! ## What a target binds -/

variable (lib) in
/-- The names that a target has for the element and for its index. -/
def elementNames : Target Span → Except Error (List String)
  | .anonymous names _ _ => .ok names
  | .named name _ => do return ((← lib.compiled name).parameters.take 1).map (·.name)

/-- A target sees the element and its index, and the scope of the expression behind them. -/
theorem scope_of_targetEntry {target : Target Span} {v : Value} {index : Nat} {entry : Entry}
    (h : lib.targetEntry f target v index = .ok entry) :
    ∃ names, lib.elementNames target = .ok names ∧ entry.frame.scope = bindElement names v index :: f.scope := by
  cases target with
  | anonymous names body place =>
    cases h
    exact ⟨names, rfl, rfl⟩
  | named name place =>
    obtain ⟨t, ht, h⟩ := bind_eq_ok.1 h
    cases h
    exact ⟨_, by rw [elementNames, ht]; rfl, rfl⟩

/-- The index is bound under its two names, unless the element or its index has the name. -/
theorem get?_bindElement (names : List String) (v : Value) (index : Nat) :
    ("i" ∉ names → (bindElement names v index).get? "i" = some (.int (index + 1 : Nat))) ∧
    ("i0" ∉ names → (bindElement names v index).get? "i0" = some (.int index)) := by
  let counted : Value := .int (index + 1 : Nat)
  let indexed := (Store.empty.set "i" counted).set "i0" (.int index)
  have hi : indexed.get? "i" = some counted := rfl
  have hi0 : indexed.get? "i0" = some (.int index) := rfl
  match names with
  | [] => exact ⟨fun _ => rfl, fun _ => rfl⟩
  | [name] =>
    have hbound : bindElement [name] v index = indexed.set name v := rfl
    simp only [List.mem_singleton, hbound]
    exact ⟨fun h => (Store.get?_set_of_ne h ..).trans hi, fun h => (Store.get?_set_of_ne h ..).trans hi0⟩
  | name :: indexName :: others =>
    have hbound : bindElement (name :: indexName :: others) v index =
        (indexed.set name v).set indexName counted := rfl
    simp only [List.mem_cons, not_or, hbound]
    constructor
    · exact fun h => (Store.get?_set_of_ne h.2.1 ..).trans ((Store.get?_set_of_ne h.1 ..).trans hi)
    · exact fun h => (Store.get?_set_of_ne h.2.1 ..).trans ((Store.get?_set_of_ne h.1 ..).trans hi0)

end

/-! ## The expression -/

/-- **Map chains are pointwise.** An expression takes a list through a chain of targets and writes one element for
each element of the list, in order, whatever its options. What stands at a place is written by the last target, on
the writer that the place is at, or on a fork of it with the same result; it is applied to what the targets before it
make of this element with this index, each on a writer of its own, and to the element itself if there are no others.
Every target sees the index of the element from one and from zero, unless it gives one of their names to something
else, and behind them the scope of the expression. The expression fails only as a chain or the last target does for
some element. So an empty list writes nothing and never fails. -/
theorem runNode_chain (lib : Library) (c : RenderConfig) (levels : Nat) {f : Frame} {p : Primary Span}
    {xs : List Value} (hp : lib.primary f p = .ok (.ofValue (.list xs))) (targets : List (Target Span))
    (last : Target Span) (o : Options) (place : Span) {w : Writer} (hw : w.Reachable) :
    let enter := lib.nested c levels
    let start := w.beginExpression o.anchor
    let run := lib.runNode c enter f w (.expression p (targets ++ [last]) o place)
    let write := lib.writeApplied enter f last
    (xs = [] → run = .ok w) ∧
    (∀ w', run = .ok w' ↔ ∃ ys ps,
      List.Forall₂ (fun x y => lib.chain c enter f targets x.2 x.1 = .ok y.1 ∧ y.2 = x.2) xs.zipIdx ys ∧
      placed (layout c o) write true ys start = .ok ps ∧
      w' = (ps.foldl (fun _ p => p.after) start).endExpression) ∧
    (∀ ys ps, placed (layout c o) write true ys start = .ok ps → ps.length = ys.length ∧
      ∀ (n : Nat) (p : Placed (Value × Nat)), ps[n]? = some p → ys[n]? = some p.element ∧
        write p.element (p.start (layout c o)) = .ok p.after ∧
        (write p.element (p.start (layout c o)).fork).map (p.start (layout c o)).absorb = .ok p.after) ∧
    (∀ e, run = .error e → ∃ x ∈ xs.zipIdx, lib.chain c enter f targets x.2 x.1 = .error e ∨
      ∃ v u, lib.chain c enter f targets x.2 x.1 = .ok v ∧ write (v, x.2) u = .error e) ∧
    ∀ target ∈ targets ++ [last], ∀ v (index : Nat) entry, lib.targetEntry f target v index = .ok entry →
      ∃ names, lib.elementNames target = .ok names ∧ entry.frame.scope = bindElement names v index :: f.scope ∧
        ("i" ∉ names → entry.frame.scope.lookup "i" = some (.int (index + 1 : Nat))) ∧
        ("i0" ∉ names → entry.frame.scope.lookup "i0" = some (.int index)) := by
  intro enter start run write
  have hstart : start.Reachable := .beginExpression o.anchor hw
  have hbalanced : ∀ y, Balanced (write y) := writeApplied_balanced (nested_balanced lib c levels) last
  have hrun : run = (do
      let ys ← targets.foldlM (fun xs target => xs.mapM (lib.chainStep c enter f target)) xs.zipIdx
      return (← start.writeElements (layout c o) write true ys).endExpression) :=
    runNode_chain_eq hp targets last o place w
  refine ⟨?_, ?_, ?_, ?_, ?_⟩
  · rintro rfl
    rw [hrun, List.zipIdx_nil, foldlM_chainStep_eq_ok_iff.2 .nil]
    rfl
  · intro w'
    simp only [hrun, bind_eq_ok, foldlM_chainStep_eq_ok_iff,
      Writer.writeElements_eq_placed (fun y _ => hbalanced y) true hstart.valid, map_eq_ok]
    constructor
    · rintro ⟨ys, hys, _, ⟨ps, hps, rfl⟩, ⟨⟩⟩
      exact ⟨ys, ps, hys, hps, rfl⟩
    · rintro ⟨ys, ps, hys, hps, rfl⟩
      exact ⟨ys, hys, _, ⟨ps, hps, rfl⟩, rfl⟩
  · intro ys ps hps
    refine ⟨Writer.length_placed hps, fun n p hp => ?_⟩
    obtain ⟨helement, -, -, -, hwritten⟩ := Writer.getElem?_placed (fun y _ => hbalanced y) hstart.aligned hps hp
    have hvalid : (p.start (layout c o)).Valid :=
      (Writer.extends_beforeElement (layout c o) p.first p.broken p.before).valid hwritten.aligned.valid
    exact ⟨helement, hwritten.after, ((hbalanced p.element).absorb_fork hvalid).trans hwritten.after⟩
  · intro e he
    exact writeChain_failsOnly targets last xs.zipIdx (layout c o) start e (hrun.symm.trans he)
  · intro target _ v index entry hentry
    obtain ⟨names, hnames, hscope⟩ := scope_of_targetEntry hentry
    obtain ⟨hi, hi0⟩ := get?_bindElement names v index
    refine ⟨names, hnames, hscope, fun h => ?_, fun h => ?_⟩
    · rw [hscope, Scope.lookup_cons, hi h]
      rfl
    · rw [hscope, Scope.lookup_cons, hi0 h]
      rfl

/-- A list with a list in it goes through two targets, and its lines are broken; an empty list goes through a target
that the group does not have. -/
theorem runNode_chain_nested :
    let place : Span := ⟨0, 0⟩
    let read (name : String) : Node Span := .expression (.path ⟨name, place, []⟩) [] {} place
    let xs : List Value := [.list [.str "a", .str "b"], .str "c"]
    let f : Frame := ⟨"page", [.ofList [("xs", .list xs), ("none", .list [])]]⟩
    let marked : Target Span := .anonymous ["x"] [read "x", .literal "!" place] place
    let counted : Target Span := .anonymous ["y", "n"] [read "n", .literal ":" place, read "y"] place
    let lib := ({} : Group).library
    let enter := lib.nested {} 2
    let o : Options := { separator := some ", ", wrap := some (.width 8) }
    let run := lib.runNode {} enter f .empty (.expression (.path ⟨"xs", place, []⟩) [marked, counted] o place)
    lib.primary f (.path ⟨"xs", place, []⟩) = .ok (.ofValue (.list xs)) ∧
    lib.primary f (.path ⟨"none", place, []⟩) = .ok (.ofValue (.list [])) ∧ Writer.empty.Reachable ∧
    (∃ w, run = .ok w ∧ w.text = "1:ab!,\n2:c!" ∧ ∃ ys ps, ys.length = 2 ∧ ps.length = 2 ∧
      placed (layout {} o) (lib.writeApplied enter f counted) true ys (Writer.empty.beginExpression false) = .ok ps) ∧
    lib.runNode {} enter f .empty (.expression (.path ⟨"none", place, []⟩) [.named "missing" place] o place) =
      .ok .empty := by
  intro place read xs f marked counted lib enter o run
  have hxs : lib.primary f (.path ⟨"xs", place, []⟩) = .ok (.ofValue (.list xs)) := rfl
  have hnone : lib.primary f (.path ⟨"none", place, []⟩) = .ok (.ofValue (.list [])) := rfl
  have htext : run.map Writer.text = .ok "1:ab!,\n2:c!" := by decide +kernel
  obtain ⟨w, hw, htext⟩ := map_eq_ok.1 htext
  obtain ⟨-, hrun, hplaces, -⟩ := runNode_chain lib {} 2 hxs [marked] counted o place .empty
  obtain ⟨ys, ps, hys, hps, -⟩ := (hrun w).1 hw
  have hlength : ys.length = 2 := hys.length_eq.symm
  refine ⟨hxs, hnone, .empty, ⟨w, hw, htext, ys, ps, hlength, ?_, hps⟩, ?_⟩
  · exact (hplaces ys ps hps).1.trans hlength
  · exact (runNode_chain lib {} 2 hnone [] (.named "missing" place) o place .empty).1 rfl

end Library
end Stencil
