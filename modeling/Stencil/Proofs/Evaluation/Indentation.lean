import Stencil.Instance
import Stencil.Proofs.Evaluation.Executes
import Stencil.Proofs.Evaluation.Simulation
import Stencil.Proofs.Layout.Reindent

/-!
# Indentation

An expression behind spaces and tabs indents everything it writes by them, however deeply its templates,
targets and regions are nested: the output is that of the expression alone, reindented (`render_indented`).
This needs that no list is broken at a width, for the columns of the two runs differ. Only expressions that
are written in place count (`Library.Executes`); what a target is applied to has the same columns in both
runs.
-/

namespace Stencil

open Template (Compiled Node Options Primary Target)
open Writer (Balanced Shifted)

namespace Library

/-! ## One level -/

section
variable {lib : Library} {c : RenderConfig} {enter : Runner} {f : Frame} {ws : List Char}

/-- The items of an expression keep the two writers related if the bodies that they enter do. -/
theorem writeItems_shifted (hbalanced : ∀ entry, Balanced (enter entry)) {p : Primary Span}
    {targets : List (Target Span)} {o : Options} {place : Span} {outcome : Outcome}
    (ho : lib.outcome c enter f p targets = .ok outcome) (hwidth : (layout c o).width = none)
    (henter : ∀ entry, lib.Enters c enter f (.expression p targets o place) entry →
      ∀ w v, Shifted ws w v → Agree (Shifted ws) (enter entry w) (enter entry v))
    {w v : Writer} (h : Shifted ws w v) :
    Agree (Shifted ws)
      (w.writeElements (layout c o) (lib.writeItem c enter f o.format) true outcome.elements)
      (v.writeElements (layout c o) (lib.writeItem c enter f o.format) true outcome.elements) := by
  refine h.writeElements hwidth (writeItem_balanced hbalanced o.format) ?_ true
  intro before item after helements hbefore w v h
  cases hi : lib.entryOf? f item with
  | none =>
    obtain ⟨x, rfl⟩ := eq_value_of_entryOf?_eq_none hi
    rw [writeItem, writeItem]
    cases lib.renderers.render x o.format c.locale with
    | error e => exact .error e
    | ok text => exact .ok (h.write text.toList)
  | some result =>
    rw [writeItem_eq_of_entryOf? hi, writeItem_eq_of_entryOf? hi]
    cases result with
    | error e => exact .error e
    | ok entry => exact henter entry (.item ho helements hbefore hi) w v h

theorem runNode_shifted (hws : ∀ ch ∈ ws, isInlineBlank ch = true)
    (hbalanced : ∀ entry, Balanced (enter entry)) {node : Node Span}
    (hwidth : ∀ p targets o place outcome, node = .expression p targets o place →
      lib.outcome c enter f p targets = .ok outcome → (layout c o).width = none)
    (henter : ∀ entry, lib.Enters c enter f node entry →
      ∀ w v, Shifted ws w v → Agree (Shifted ws) (enter entry w) (enter entry v))
    {w v : Writer} (h : Shifted ws w v) :
    Agree (Shifted ws) (lib.runNode c enter f w node) (lib.runNode c enter f v node) := by
  cases node with
  | literal text place => exact .ok (h.write text.toList)
  | slot name place =>
    rw [runNode, runNode, runRegion, runRegion]
    cases he : lib.regionEntry f name none with
    | none => exact .ok h
    | some entry => exact henter entry (.slot he) w v h
  | region name body place =>
    rw [runNode, runNode, runRegion, runRegion]
    cases he : lib.regionEntry f name (some body) with
    | none => exact .ok h
    | some entry => exact henter entry (.region he) w v h
  | expression p targets o place =>
    rw [runNode, runNode, runExpression_eq, runExpression_eq]
    cases ho : lib.outcome c enter f p targets with
    | error e => exact .error e
    | ok outcome =>
      have hbegin := h.beginExpression hws o.anchor
      have hwritten := writeItems_shifted hbalanced ho (hwidth _ _ _ _ _ rfl ho) henter hbegin
      refine hwritten.bind_of_ok fun w' v' hw' h' => ?_
      have hextends : (w.beginExpression o.anchor).Extends w' :=
        (Balanced.elements _ fun item _ => writeItem_balanced hbalanced o.format item).extends hw'
      exact .ok (h.endExpression h' hextends)

/-- Nodes keep the two writers related if each of them does that the run comes to. -/
theorem runNodes_shifted_of_reaches {nodes : List (Node Span)}
    (hnode : ∀ node, lib.Reaches c enter f nodes node →
      ∀ w v, Shifted ws w v → Agree (Shifted ws) (lib.runNode c enter f w node) (lib.runNode c enter f v node))
    {w v : Writer} (h : Shifted ws w v) :
    Agree (Shifted ws) (lib.runNodes c enter f nodes w) (lib.runNodes c enter f nodes v) := by
  induction nodes generalizing w v with
  | nil => exact .ok h
  | cons node nodes ih =>
    rw [runNodes, runNodes, List.foldlM_cons, List.foldlM_cons]
    refine (hnode node ⟨[], nodes, rfl, by simp⟩ w v h).bind_of_ok fun w' v' hw' h' => ih ?_ h'
    -- A node that the rest comes to, the whole list comes to as well.
    rintro node' ⟨before, after, rfl, hbefore⟩
    refine hnode node' ⟨node :: before, after, rfl, ?_⟩
    intro n hn
    rcases List.mem_cons.1 hn with rfl | hn
    · exact ⟨w, w', hw'⟩
    · exact hbefore n hn

end

/-! ## All levels -/

/-- A body that a run enters keeps the two writers related if no width applies in the run. -/
theorem enter_shifted (lib : Library) (c : RenderConfig) {ws : List Char}
    (hws : ∀ ch ∈ ws, isInlineBlank ch = true) (levels : Nat) {f : Frame} {nodes : List (Node Span)}
    (hwidth : ∀ o, lib.Executes c levels f nodes o → (layout c o).width = none) {node : Node Span}
    (hnode : lib.Reaches c (lib.nested c levels) f nodes node) {entry : Entry}
    (hentry : lib.Enters c (lib.nested c levels) f node entry) {w v : Writer} (h : Shifted ws w v) :
    Agree (Shifted ws) (lib.nested c levels entry w) (lib.nested c levels entry v) := by
  induction levels generalizing f nodes node entry w v with
  | zero => exact .error _
  | succ levels ih =>
    -- What the body comes to, the run that enters it comes to as well.
    have hinside : ∀ o, lib.Executes c levels entry.frame entry.nodes o → (layout c o).width = none :=
      fun o ho => hwidth o (.inside hnode hentry ho)
    rw [nested, nested]
    refine runNodes_shifted_of_reaches (fun node' hnode' w v h => ?_) h
    refine runNode_shifted hws (nested_balanced lib c levels) ?_ ?_ h
    · rintro p targets o place outcome rfl ho
      exact hinside o (.here hnode' ho)
    · exact fun entry' hentry' w v h => ih hinside hnode' hentry' h

/-- An expression behind spaces and tabs, in place. -/
theorem render_behind (lib : Library) (c : RenderConfig) (t : Compiled) (attributes : Store) {ws : List Char}
    (hws : ∀ ch ∈ ws, isInlineBlank ch = true) {p : Primary Span} {targets : List (Target Span)} {o : Options}
    {place : Span} (ht : t.nodes = [.expression p targets o place])
    (hwidth : ∀ o', lib.Executes c lib.maxDepth ⟨t.name, [attributes]⟩ t.nodes o' →
      (layout c o').width = none) :
    lib.render c { t with nodes := .literal (String.ofList ws) place :: t.nodes } attributes =
      (lib.render c t attributes).map fun alone => String.ofList (ws ++ reindent ws alone.toList) := by
  rw [ht] at hwidth
  have hnode : lib.Reaches c (lib.nested c lib.maxDepth) ⟨t.name, [attributes]⟩
      [.expression p targets o place] (.expression p targets o place) := ⟨[], [], rfl, by simp⟩
  have halone : lib.render c t attributes =
      (lib.runExpression c (lib.nested c lib.maxDepth) ⟨t.name, [attributes]⟩ p targets o
        .empty).map Writer.text := by
    rw [render, ht, runNodes, List.foldlM_cons]
    simp only [List.foldlM_nil, bind_pure]
    rfl
  have hbehind : lib.render c { t with nodes := .literal (String.ofList ws) place :: t.nodes } attributes =
      (lib.runExpression c (lib.nested c lib.maxDepth) ⟨t.name, [attributes]⟩ p targets o
        (Writer.empty.write ws)).map Writer.text := by
    rw [render, ht, runNodes, List.foldlM_cons, runNode, String.toList_ofList]
    simp only [List.foldlM_cons, List.foldlM_nil, bind_pure]
    rfl
  rw [halone, hbehind, runExpression_eq, runExpression_eq]
  cases ho : lib.outcome c (lib.nested c lib.maxDepth) ⟨t.name, [attributes]⟩ p targets with
  | error e => rfl
  | ok outcome =>
    have hwritten := writeItems_shifted (nested_balanced lib c lib.maxDepth) ho (hwidth o (.here hnode ho))
      (fun entry hentry w v h => enter_shifted lib c hws _ hwidth hnode hentry h) (Shifted.start hws o.anchor)
    -- The end of the expression leaves the text as it is.
    have hclose : ∀ r : Except Error Writer,
        (do return (← r).endExpression : Except Error Writer).map Writer.text = r.map Writer.text := by
      intro r
      cases r <;> rfl
    refine (hclose _).trans (Eq.trans ?_ (congrArg (Except.map _) (hclose _)).symm)
    refine hwritten.map_eq fun w v h => congrArg String.ofList ?_
    rw [Writer.text, String.toList_ofList]
    exact h.buffer

end Library

/-- A default group has no bodies: what a run writes stands in the template. -/
theorem Group.not_hasBody_default (body : List (Node Span)) : ¬ ({} : Group).library.HasBody body := by
  rintro (⟨name, t, ht, -⟩ | ⟨template, region, t, ht, -⟩)
  · cases ht
  · cases ht

/-- **Auto-indentation is reindentation.** Spaces and tabs before an expression come before every line that
it writes, except for empty lines, whatever is run inside it, as long as no width applies to what it writes;
and the expression fails behind them just as it does alone. -/
theorem Group.render_indented (g : Group) (c : RenderConfig) {t t' : Compiled} (hname : t'.name = t.name)
    {p : Primary Span} {targets : List (Target Span)} {o : Options} {place : Span}
    (ht : t.nodes = [.expression p targets o place]) {ws : List Char}
    (hws : ∀ ch ∈ ws, ch = ' ' ∨ ch = '\t')
    (ht' : Node.eraseAll t'.nodes = Node.leading ws ++ Node.eraseAll t.nodes) (attributes : Store)
    (hwidth : ∀ o', g.library.Executes c g.config.maxDepth ⟨t.name, [attributes]⟩ t.nodes o' →
      (Library.layout c o').width = none) :
    g.render c t' attributes =
      (g.render c t attributes).map fun alone => String.ofList (ws ++ reindent ws alone.toList) := by
  cases ws with
  | nil =>
    have hplaces : g.render c t' attributes = g.render c t attributes :=
      g.library.render_eq_of_same c hname ht' attributes
    rw [hplaces]
    cases g.render c t attributes with
    | error e => rfl
    | ok alone =>
      have hself : String.ofList ([] ++ reindent [] alone.toList) = alone := by
        rw [List.nil_append, reindent_nil, String.ofList_toList]
      exact congrArg Except.ok hself.symm
  | cons ch ws =>
    have hblank : ∀ b ∈ ch :: ws, isInlineBlank b = true := by
      intro b hb
      simpa [isInlineBlank] using hws b hb
    let behind : Compiled := { t with nodes := .literal (String.ofList (ch :: ws)) place :: t.nodes }
    have hname' : t'.name = behind.name := hname
    have hnodes : Node.Same id t'.nodes behind.nodes := ht'
    have hplaces : g.render c t' attributes = g.render c behind attributes :=
      g.library.render_eq_of_same c hname' hnodes attributes
    rw [hplaces]
    exact g.library.render_behind c t attributes hblank ht hwidth

/-- An anchored list behind a space and a tab, with an empty line in one of its elements. -/
theorem Group.render_indented_list :
    let place : Span := ⟨0, 0⟩
    let attributes := Store.ofList [("xs", .list [.str "a\n  b\n", .int 1])]
    let list : Node Span := .expression (.path ⟨"xs", place, []⟩)
      [.anonymous ["x"] [.literal "- " place, .expression (.path ⟨"x", place, []⟩) [] {} place] place]
      { separator := some "\n", anchor := true } place
    let t : Compiled := ⟨"list", none, [list], {}, ""⟩
    let t' : Compiled := ⟨"list", none, [.literal " \t" place, list], {}, ""⟩
    t'.name = t.name ∧ t.nodes = [list] ∧ (∀ ch ∈ [' ', '\t'], ch = ' ' ∨ ch = '\t') ∧
    Node.eraseAll t'.nodes = Node.leading [' ', '\t'] ++ Node.eraseAll t.nodes ∧
    (∀ o', ({} : Group).library.Executes {} ({} : Group).config.maxDepth ⟨t.name, [attributes]⟩ t.nodes o' →
      (Library.layout {} o').width = none) ∧
    ({} : Group).render {} t attributes = .ok "- a\n  b\n\n- 1" ∧
    ({} : Group).render {} t' attributes = .ok " \t- a\n \t  b\n\n \t- 1" := by
  intro place attributes list t t'
  have hws : ∀ ch ∈ [' ', '\t'], ch = ' ' ∨ ch = '\t' := by
    intro ch hch
    simpa using hch
  have hwidth : ∀ o', ({} : Group).library.Executes {} ({} : Group).config.maxDepth ⟨t.name, [attributes]⟩
      t.nodes o' → (Library.layout {} o').width = none := by
    intro o' ho'
    have hoptions : Node.optionsAll t.nodes = [{ separator := some "\n", anchor := true }, {}] := rfl
    rcases ho'.mem_options with hmem | ⟨body, hbody, -⟩
    · rw [hoptions] at hmem
      rcases List.mem_cons.1 hmem with rfl | hmem
      · rfl
      · rw [List.mem_singleton.1 hmem]
        rfl
    · exact absurd hbody (not_hasBody_default body)
  have halone : ({} : Group).render {} t attributes = .ok "- a\n  b\n\n- 1" := by
    decide +kernel
  have hname : t'.name = t.name := rfl
  have ht : t.nodes = [list] := rfl
  have ht' : Node.eraseAll t'.nodes = Node.leading [' ', '\t'] ++ Node.eraseAll t.nodes := rfl
  refine ⟨hname, ht, hws, ht', hwidth, halone, ?_⟩
  rw [({} : Group).render_indented {} hname ht hws ht' attributes hwidth, halone]
  decide

end Stencil
