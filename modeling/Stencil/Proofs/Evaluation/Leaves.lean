import Stencil.Instance
import Stencil.Proofs.Evaluation.Executes
import Stencil.Proofs.Layout.Texts

/-!
# Values that are written

A value is written as the texts of its leaves, from left to right and with the separator between them; an empty
list has no leaves, so it adds neither a text nor a separator (`Library.runNode_leaves`). The one thing that comes
to these texts is indentation: before the first character of a pending line, and after newlines of the separator
(`Library.runNode_leaves_indented`). The list functions pick elements of a value (`Outcome.items_applyFunction`).
Where no leaf has a newline, it makes no difference whether elements are written by one expression or by several,
so a value can be taken apart and written in parts (`Library.runNodes_parts`).
-/

namespace Stencil

open Template (ListFunction Node Options Path Primary Target)

/-! ## Leaves and elements -/

namespace Value

def members : Value → List Value
  | list vs => vs
  | v => [v]

theorem leavesAll_eq_flatMap (vs : List Value) : leavesAll vs = vs.flatMap leaves := by
  induction vs with
  | nil => rfl
  | cons v vs ih => rw [leavesAll, ih, List.flatMap_cons]

theorem leaves_eq_flatMap_members (v : Value) : v.leaves = v.members.flatMap leaves := by
  cases v with
  | list vs => rw [leaves, leavesAll_eq_flatMap, members]
  | _ => exact (List.flatMap_singleton ..).symm

/-- An empty list among the elements of a list adds no leaf. -/
theorem leaves_append_nil (before after : List Value) :
    (list (before ++ list [] :: after)).leaves = (list (before ++ after)).leaves := by
  simp [leaves, leavesAll_eq_flatMap, leavesAll]

end Value

namespace Outcome

theorem items_ofValue (v : Value) : (ofValue v).items = v.members.map .value := by
  cases v <;> rfl

theorem elements_of_values {o : Outcome} {vs : List Value} (h : o.items = vs.map .value) :
    o.elements = (vs.flatMap Value.leaves).map .value := by
  rw [elements_eq, h, List.flatMap_map, List.map_flatMap]
  rfl

/-- A value has the same leaves as a whole and taken apart into its elements. -/
theorem elements_of_value {o : Outcome} {v : Value} (h : o = .ofValue v ∨ o = .one (.value v)) :
    o.elements = v.leaves.map .value := by
  rcases h with rfl | rfl
  · rw [elements_of_values (items_ofValue v), ← Value.leaves_eq_flatMap_members]
  · rfl

/-- What a list function but the length picks of the elements of a value. -/
def pick {α : Type} : ListFunction → List α → List α
  | .first, xs => xs.take 1
  | .last, xs => xs.getLast?.toList
  | .rest, xs => xs.tail
  | .trunc, xs => xs.dropLast
  | .reverse, xs => xs.reverse
  | .length, _ => []

theorem items_applyFunction {function : ListFunction} (h : function ≠ .length) (o : Outcome) :
    (o.applyFunction function).items = pick function o.items := by
  cases function with
  | length => exact absurd rfl h
  | first =>
    match o with
    | one _ => rfl
    | many [] => rfl
    | many (_ :: _) => rfl
  | last =>
    cases o with
    | one _ => rfl
    | many xs =>
      rw [applyFunction, pick, items]
      cases xs.getLast? <;> rfl
  | rest => cases o <;> rfl
  | trunc => cases o <;> rfl
  | reverse => cases o <;> rfl

theorem applyFunction_length (o : Outcome) : o.applyFunction .length = .one (.value (.int o.items.length)) := by
  cases o <;> rfl

theorem pick_map {α β : Type} (function : ListFunction) (g : α → β) (xs : List α) :
    pick function (xs.map g) = (pick function xs).map g := by
  cases function with
  | first => exact List.map_take.symm
  | last =>
    rw [pick, pick, List.getLast?_map]
    cases xs.getLast? <;> rfl
  | rest => exact List.map_tail.symm
  | trunc => exact List.map_dropLast.symm
  | reverse => exact List.map_reverse.symm
  | length => rfl

/-- The first element and the rest are all elements, and so are all but the last and the last. -/
theorem pick_append_pick {α : Type} (xs : List α) :
    pick .first xs ++ pick .rest xs = xs ∧ pick .trunc xs ++ pick .last xs = xs := by
  constructor
  · rw [pick, pick, ← List.drop_one]
    exact List.take_append_drop 1 xs
  · rw [pick, pick]
    cases hlast : xs.getLast? with
    | none => rw [List.getLast?_eq_none_iff.1 hlast]; rfl
    | some x => exact List.dropLast_append_getLast? x hlast

end Outcome

namespace Library

section
variable (lib : Library) (c : RenderConfig)

/-- What a leaf is written as under a format. -/
def leafText (format : Option String) (leaf : Value) : Except Error (List Char) :=
  (lib.renderers.render leaf format c.locale).map String.toList

/-- What a value is written as without a format and a separator: the texts of its leaves. -/
def plainText (v : Value) : Except Error (List Char) :=
  (v.leaves.mapM (lib.leafText c none)).map List.flatten

/-- No leaf of the value is written as a text with a newline. -/
def OneLine (v : Value) : Prop :=
  ∀ leaf ∈ v.leaves, ∀ text, lib.leafText c none leaf = .ok text → '\n' ∉ text

variable {lib c} {enter : Runner} {f : Frame}

theorem writeItem_value (format : Option String) (v : Value) (w : Writer) :
    lib.writeItem c enter f format (.value v) w = (lib.leafText c format v).map w.write := by
  rw [writeItem, leafText]
  cases lib.renderers.render v format c.locale <;> rfl

/-- Without a width, an expression that comes to leaves writes their texts with the separator between them. -/
theorem runNode_leaves_eq {p : Primary Span} {targets : List (Target Span)} {outcome : Outcome} {leaves : List Value}
    (houtcome : lib.outcome c enter f p targets = .ok outcome) (hleaves : outcome.elements = leaves.map .value)
    {o : Options} (hwidth : (layout c o).width = none) (place : Span) {w : Writer} (hw : w.Aligned) :
    lib.runNode c enter f w (.expression p targets o place) =
      (leaves.mapM (lib.leafText c o.format)).map fun texts =>
        ((w.beginExpression o.anchor).write ((layout c o).separator.intercalate texts)).endExpression := by
  have hwritten : (w.beginExpression o.anchor).writeElements (layout c o) (lib.writeItem c enter f o.format) true
      (leaves.map .value) = (leaves.mapM (lib.leafText c o.format)).map fun texts =>
        (w.beginExpression o.anchor).write ((layout c o).separator.intercalate texts) := by
    rw [Writer.writeElements_map (layout c o) (writeItem_value o.format)]
    exact Writer.writeElements_texts hwidth (fun _ _ => rfl) leaves (hw.beginExpression o.anchor).valid []
  rw [runNode, runExpression_eq, houtcome]
  simp only [bind, Except.bind, hleaves, hwritten]
  cases leaves.mapM (lib.leafText c o.format) <;> rfl

end

/-! ## A value as a whole -/

/-- **A value is written as its leaves.** Without a width, an expression that comes to a value writes the texts of
the leaves from left to right with the separator between them, anywhere in the output. What is appended is this text
with its indentation: before its first character, if that is on a line that is still to be indented, and the margin
of the expression after its newlines. So a text without newlines is appended as it is, behind what the line still
begins with. Empty lists add neither a text nor a separator. The expression fails just if a leaf has no text, with the
error of the first one. -/
theorem runNode_leaves (lib : Library) (c : RenderConfig) (levels : Nat) {f : Frame} {p : Primary Span}
    {targets : List (Target Span)} {outcome : Outcome} {v : Value}
    (houtcome : lib.outcome c (lib.nested c levels) f p targets = .ok outcome)
    (hv : outcome = .ofValue v ∨ outcome = .one (.value v)) {o : Options} (hwidth : (layout c o).width = none)
    (place : Span) {w : Writer} (hw : w.Reachable) :
    let start := w.beginExpression o.anchor
    let run := lib.runNode c (lib.nested c levels) f w (.expression p targets o place)
    (∀ texts, List.Forall₂ (fun leaf text => lib.leafText c o.format leaf = .ok text) v.leaves texts →
      let joined := (layout c o).separator.intercalate texts
      ∃ w', run = .ok w' ∧ w'.buffer.toList = w.buffer.toList ++ start.indented joined ∧ start.lead = w.lead ∧
        ('\n' ∉ joined → w' = w.write joined ∧
          (joined ≠ [] → w'.buffer.toList = w.buffer.toList ++ (w.lead ++ joined)) ∧
          (w.pendingIndent = false → w' = w.append joined))) ∧
    (∀ before after, v = .list (before ++ .list [] :: after) → v.leaves = (Value.list (before ++ after)).leaves) ∧
    (v.leaves = [] → run = .ok w) ∧
    (∀ e, run = .error e ↔ ∃ before leaf after, v.leaves = before ++ leaf :: after ∧
      (∀ x ∈ before, ∃ text, lib.leafText c o.format x = .ok text) ∧ lib.leafText c o.format leaf = .error e) := by
  intro start run
  have hrun : run = (v.leaves.mapM (lib.leafText c o.format)).map fun texts =>
      (start.write ((layout c o).separator.intercalate texts)).endExpression :=
    runNode_leaves_eq houtcome (Outcome.elements_of_value hv) hwidth place hw.aligned
  refine ⟨?_, ?_, ?_, ?_⟩
  · intro texts htexts joined
    have hresult : run = .ok (start.write joined).endExpression := by rw [hrun, mapM_eq_ok_iff.2 htexts]; rfl
    have hlead : start.lead = w.lead := hw.aligned.lead_beginExpression o.anchor
    have hbuffer : (start.write joined).endExpression.buffer.toList = w.buffer.toList ++ start.indented joined :=
      (hw.aligned.beginExpression o.anchor).toList_buffer_write joined
    refine ⟨_, hresult, hbuffer, hlead, fun hjoined => ?_⟩
    have hwrite : (start.write joined).endExpression = w.write joined := hw.aligned.write_inside o.anchor hjoined
    refine ⟨hwrite, fun hne => ?_, fun hpending => hwrite.trans (Writer.write_eq_append hpending hjoined)⟩
    rw [hbuffer, start.indented_of_newline_notMem hne hjoined, hlead]
  · rintro before after rfl
    exact Value.leaves_append_nil before after
  · intro hnone
    rw [hrun, hnone]
    rfl
  · intro e
    rw [hrun, map_eq_error, mapM_eq_error_iff]

/-- A list with empty lists in it, behind some text. -/
theorem runNode_leaves_nested :
    let place : Span := ⟨0, 0⟩
    let v : Value := .list [.list [], .list [.str "a", .list []], .int 7]
    let f : Frame := ⟨"page", [.ofList [("xs", v)]]⟩
    let lib := ({} : Group).library
    let o : Options := { separator := some ", " }
    let w := Writer.empty.write "x: ".toList
    let texts := ["a".toList, "7".toList]
    lib.outcome {} (lib.nested {} 1) f (.path ⟨"xs", place, []⟩) [] = .ok (.ofValue v) ∧
    (layout {} o).width = none ∧ w.Reachable ∧
    List.Forall₂ (fun leaf text => lib.leafText {} none leaf = .ok text) v.leaves texts ∧
    lib.runNode {} (lib.nested {} 1) f w (.expression (.path ⟨"xs", place, []⟩) [] o place) =
      .ok (w.append "a, 7".toList) := by
  intro place v f lib o w texts
  have houtcome : lib.outcome {} (lib.nested {} 1) f (.path ⟨"xs", place, []⟩) [] = .ok (.ofValue v) := rfl
  have hw : w.Reachable := .write _ .empty
  have htexts : List.Forall₂ (fun leaf text => lib.leafText {} none leaf = .ok text) v.leaves texts :=
    .cons rfl (.cons rfl .nil)
  have hjoined : (layout {} o).separator.intercalate texts = "a, 7".toList := by decide
  obtain ⟨w', hrun, -, -, hw'⟩ :=
    (runNode_leaves lib {} 1 houtcome (.inl rfl) (o := o) rfl place hw).1 texts htexts
  rw [hjoined] at hw'
  exact ⟨houtcome, rfl, hw, htexts, by rw [hrun, (hw' (by decide)).2.2 rfl]⟩

/-- A newline of the separator is followed by the indentation of the line on which the expression stands. -/
theorem runNode_leaves_indented :
    let place : Span := ⟨0, 0⟩
    let v : Value := .list [.int 1, .int 2]
    let f : Frame := ⟨"page", [.ofList [("xs", v)]]⟩
    let lib := ({} : Group).library
    let o : Options := { separator := some "\n" }
    let w := Writer.empty.write "  ".toList
    let run := lib.runNode {} (lib.nested {} 1) f w (.expression (.path ⟨"xs", place, []⟩) [] o place)
    w.Reachable ∧ o.wrap = none ∧ v.leaves.map (lib.leafText {} none) = [.ok ['1'], .ok ['2']] ∧
    (layout {} o).separator.intercalate [['1'], ['2']] = "1\n2".toList ∧
    run.map Writer.text = .ok "  1\n  2" ∧
    run.map (·.buffer.toList) ≠ .ok (w.buffer.toList ++ "1\n2".toList) := by
  intro place v f lib o w run
  exact ⟨.write _ .empty, rfl, by decide +kernel, by decide +kernel, by decide +kernel, by decide +kernel⟩

/-! ## A value in parts -/

section
variable {lib : Library} {c : RenderConfig} {enter : Runner} {f : Frame}

/-- The texts of elements one after the other are the texts of all their leaves. -/
theorem mapM_plainText (vs : List Value) :
    (vs.mapM (lib.plainText c)).map List.flatten =
      ((vs.flatMap Value.leaves).mapM (lib.leafText c none)).map List.flatten := by
  induction vs with
  | nil => rfl
  | cons v vs ih =>
    rw [List.flatMap_cons, List.mapM_append, List.mapM_cons, plainText]
    cases v.leaves.mapM (lib.leafText c none) with
    | error e => rfl
    | ok texts =>
      generalize vs.mapM (lib.plainText c) = rest, (vs.flatMap Value.leaves).mapM (lib.leafText c none) = rest' at ih
      cases rest <;> cases rest' <;> simp_all [Except.map, bind, Except.bind, pure, Except.pure]

/-- Elements without newlines are written as their texts one after the other. -/
theorem runNode_values_eq {q : Primary Span} {o : Outcome} {vs : List Value} (hq : lib.primary f q = .ok o)
    (hvs : o.items = vs.map .value) (hline : ∀ v ∈ vs, lib.OneLine c v) (place : Span) {w : Writer}
    (hw : w.Aligned) : lib.runNode c enter f w (.expression q [] {} place) =
      (vs.mapM (lib.plainText c)).map fun texts => w.write texts.flatten := by
  have houtcome : lib.outcome c enter f q [] = .ok o := by
    rw [Library.outcome, hq]
    rfl
  have hnewline : ∀ texts, (vs.flatMap Value.leaves).mapM (lib.leafText c none) = .ok texts → '\n' ∉ texts.flatten := by
    intro texts htexts hmem
    obtain ⟨text, htext, hmem⟩ := List.mem_flatten.1 hmem
    obtain ⟨leaf, hleaf, htext⟩ := exists_mem_of_forall₂ (mapM_eq_ok_iff.1 htexts) htext
    obtain ⟨v, hv, hleaf⟩ := List.mem_flatMap.1 hleaf
    exact hline v hv leaf hleaf text htext hmem
  calc lib.runNode c enter f w (.expression q [] {} place)
      = ((vs.flatMap Value.leaves).mapM (lib.leafText c none)).map fun texts =>
          ((w.beginExpression false).write ([].intercalate texts)).endExpression :=
        runNode_leaves_eq houtcome (Outcome.elements_of_values hvs) rfl place hw
    _ = ((vs.flatMap Value.leaves).mapM (lib.leafText c none)).map fun texts => w.write texts.flatten :=
        map_congr_of_ok fun texts htexts => by
          rw [intercalate_nil_separator, hw.write_inside false (hnewline texts htexts)]
    _ = (((vs.flatMap Value.leaves).mapM (lib.leafText c none)).map List.flatten).map w.write := (map_map ..).symm
    _ = ((vs.mapM (lib.plainText c)).map List.flatten).map w.write := by rw [mapM_plainText]
    _ = (vs.mapM (lib.plainText c)).map fun texts => w.write texts.flatten := map_map ..

/-- Two expressions, one behind the other, write what one expression with the elements of both writes. -/
theorem runNodes_pair_eq {p q r : Primary Span} {o o' o'' : Outcome} {vs vs' : List Value}
    (hp : lib.primary f p = .ok o) (hvs : o.items = vs.map .value) (hq : lib.primary f q = .ok o')
    (hvs' : o'.items = vs'.map .value) (hr : lib.primary f r = .ok o'') (hboth : o''.items = (vs ++ vs').map .value)
    (hline : ∀ v ∈ vs ++ vs', lib.OneLine c v) (place place' place'' : Span) {w : Writer} (hw : w.Aligned) :
    lib.runNodes c enter f [.expression p [] {} place, .expression q [] {} place'] w =
      lib.runNodes c enter f [.expression r [] {} place''] w := by
  have hline := List.forall_mem_append.1 hline
  rw [runNodes, runNodes, List.foldlM_cons, List.foldlM_cons, runNode_values_eq hp hvs hline.1 place hw,
    runNode_values_eq hr hboth (List.forall_mem_append.2 hline) place'' hw, List.mapM_append]
  cases vs.mapM (lib.plainText c) with
  | error e => rfl
  | ok texts =>
    simp only [Except.map, bind, Except.bind]
    rw [List.foldlM_cons, runNode_values_eq hq hvs' hline.2 place' (hw.write texts.flatten)]
    cases vs'.mapM (lib.plainText c) with
    | error e => rfl
    | ok texts' => simp [Except.map, bind, Except.bind, pure, Except.pure, Writer.write_append]

/-- Nodes can be replaced where they are run, if others do the same there. -/
theorem runNodes_congr (henter : ∀ entry, Writer.Balanced (enter entry)) {nodes nodes' : List (Node Span)}
    (h : ∀ {w : Writer}, w.Aligned → lib.runNodes c enter f nodes w = lib.runNodes c enter f nodes' w)
    (before after : List (Node Span)) {w : Writer} (hw : w.Aligned) :
    lib.runNodes c enter f (before ++ nodes ++ after) w = lib.runNodes c enter f (before ++ nodes' ++ after) w := by
  simp only [runNodes, List.foldlM_append] at h ⊢
  cases hbefore : before.foldlM (lib.runNode c enter f) w with
  | error e => rfl
  | ok w' =>
    have hw' : w'.Aligned := (runNodes_balanced henter before).keeps Writer.kept_aligned hw hbefore
    simp only [bind, Except.bind, h hw']

theorem primary_function {path : Path Span} {v : Value} (hpath : lib.adaptors.resolve f.scope path = .ok v)
    (function : ListFunction) :
    lib.primary f (.function function (.path path)) = .ok ((Outcome.ofValue v).applyFunction function) := by
  rw [primary, Adaptors.argument, hpath]
  rfl

theorem items_function {function : ListFunction} (h : function ≠ .length) (v : Value) :
    ((Outcome.ofValue v).applyFunction function).items = (Outcome.pick function v.members).map .value := by
  rw [Outcome.items_applyFunction h, Outcome.items_ofValue, Outcome.pick_map]

end

/-- **List functions take a value apart without loss.** Where no leaf of a value has a newline, the first element
and the rest behind it write what the value writes, and so do all but the last and the last, wherever they stand:
they fail with the same error or lead to the same writer. The value itself is written as the texts of its elements,
its reverse as those of its elements in the opposite order, and its length counts them. -/
theorem runNodes_parts (lib : Library) (c : RenderConfig) (levels : Nat) {f : Frame} {path : Path Span} {v : Value}
    (hpath : lib.adaptors.resolve f.scope path = .ok v) (hline : lib.OneLine c v) (before after : List (Node Span))
    (place place' place'' : Span) {w : Writer} (hw : w.Reachable) :
    let whole (place : Span) : Node Span := .expression (.path path) [] {} place
    let part (function : ListFunction) (place : Span) : Node Span :=
      .expression (.function function (.path path)) [] {} place
    let run (nodes : List (Node Span)) := lib.runNodes c (lib.nested c levels) f (before ++ nodes ++ after) w
    let runNode (node : Node Span) := lib.runNode c (lib.nested c levels) f w node
    run [part .first place, part .rest place'] = run [whole place''] ∧
    run [part .trunc place, part .last place'] = run [whole place''] ∧
    runNode (whole place) = (v.members.mapM (lib.plainText c)).map (fun texts => w.write texts.flatten) ∧
    runNode (part .reverse place) =
      (v.members.reverse.mapM (lib.plainText c)).map (fun texts => w.write texts.flatten) ∧
    ∃ n : Nat, lib.primary f (.function .length (.path path)) = .ok (.one (.value (.int n))) ∧
      (∀ vs, v = .list vs → n = vs.length) ∧ (v.isList = false → n = 1) := by
  intro whole part run runNode
  have hmembers : ∀ x ∈ v.members, lib.OneLine c x := fun x hx leaf hleaf =>
    hline leaf (v.leaves_eq_flatMap_members ▸ List.mem_flatMap.2 ⟨x, hx, hleaf⟩)
  have hwhole : lib.primary f (.path path) = .ok (.ofValue v) := by
    rw [primary, hpath]
    rfl
  have hparts := Outcome.pick_append_pick v.members
  have hpair : ∀ function function', function ≠ .length → function' ≠ .length →
      Outcome.pick function v.members ++ Outcome.pick function' v.members = v.members →
      run [part function place, part function' place'] = run [whole place''] := by
    intro function function' h h' happend
    refine runNodes_congr (nested_balanced lib c levels) (fun hw => ?_) before after hw.aligned
    exact runNodes_pair_eq (primary_function hpath function) (items_function h v) (primary_function hpath function')
      (items_function h' v) hwhole (happend.symm ▸ Outcome.items_ofValue v) (happend.symm ▸ hmembers) place place'
      place'' hw
  refine ⟨hpair _ _ (by decide) (by decide) hparts.1, hpair _ _ (by decide) (by decide) hparts.2, ?_, ?_, ?_⟩
  · exact runNode_values_eq hwhole (Outcome.items_ofValue v) hmembers place hw.aligned
  · exact runNode_values_eq (primary_function hpath .reverse) (items_function (by decide) v)
      (fun x hx => hmembers x (List.mem_reverse.1 hx)) place hw.aligned
  · refine ⟨v.members.length, ?_, ?_, fun hv => ?_⟩
    · rw [primary_function hpath, Outcome.applyFunction_length, Outcome.items_ofValue, List.length_map]
    · rintro vs rfl
      rfl
    · cases v with
      | list vs => cases hv
      | _ => rfl

/-- A list of a list, an empty one and a text, between parentheses. -/
theorem runNodes_parts_nested :
    let place : Span := ⟨0, 0⟩
    let v : Value := .list [.list [.str "a", .int 1], .list [], .str "b"]
    let f : Frame := ⟨"page", [.ofList [("xs", v)]]⟩
    let lib := ({} : Group).library
    let path : Path Span := ⟨"xs", place, []⟩
    let part (function : ListFunction) : Node Span := .expression (.function function (.path path)) [] {} place
    let run (nodes : List (Node Span)) :=
      lib.runNodes {} (lib.nested {} 1) f ([.literal "(" place] ++ nodes ++ [.literal ")" place]) .empty
    lib.adaptors.resolve f.scope path = .ok v ∧ lib.OneLine {} v ∧ Writer.empty.Reachable ∧
    (run [part .first, part .rest]).map Writer.text = .ok "(a1b)" ∧
    run [part .first, part .rest] = run [part .trunc, part .last] ∧
    (run [part .reverse, part .length]).map Writer.text = .ok "(ba13)" := by
  intro place v f lib path part run
  have hpath : lib.adaptors.resolve f.scope path = .ok v := rfl
  have htexts : v.leaves.map (lib.leafText {} none) = [.ok ['a'], .ok ['1'], .ok ['b']] := by decide +kernel
  have hline : lib.OneLine {} v := by
    intro leaf hleaf text htext
    have hmem : .ok text ∈ v.leaves.map (lib.leafText {} none) := htext ▸ List.mem_map_of_mem hleaf
    have htext : text ∈ [['a'], ['1'], ['b']] := by simpa [htexts] using hmem
    exact (by decide : ∀ text ∈ [['a'], ['1'], ['b']], '\n' ∉ text) text htext
  obtain ⟨hfirst, htrunc, -⟩ := runNodes_parts lib {} 1 (f := f) hpath hline [.literal "(" place]
    [.literal ")" place] place place place .empty
  exact ⟨rfl, hline, .empty, by decide +kernel, hfirst.trans htrunc.symm, by decide +kernel⟩

end Library
end Stencil
