import Stencil.Proofs.Evaluation.Balanced

/-!
# What a run comes to

`Executes` says which expressions a run writes, with the bodies that it enters on the way; it follows the run
itself, so a body counts only if its item is really written. What a target is applied to is left out: it is
turned into a text on a writer of its own. Every such expression stands somewhere in the nodes that are run
or in a body of the library (`Executes.mem_options`).
-/

namespace Stencil

namespace Template

mutual

/-- The options of the expressions in a node, those in its bodies included. -/
def Node.options {σ : Type} : Node σ → List Options
  | .literal _ _ => []
  | .slot _ _ => []
  | .region _ body _ => Node.optionsAll body
  | .expression _ targets o _ => o :: Target.optionsAll targets

def Node.optionsAll {σ : Type} : List (Node σ) → List Options
  | [] => []
  | n :: ns => Node.options n ++ Node.optionsAll ns

def Target.options {σ : Type} : Target σ → List Options
  | .anonymous _ body _ => Node.optionsAll body
  | .named _ _ => []

def Target.optionsAll {σ : Type} : List (Target σ) → List Options
  | [] => []
  | t :: ts => Target.options t ++ Target.optionsAll ts

end

theorem Node.mem_optionsAll {σ : Type} {node : Node σ} {nodes : List (Node σ)} (hn : node ∈ nodes) {o : Options}
    (ho : o ∈ node.options) : o ∈ Node.optionsAll nodes := by
  induction nodes with
  | nil => cases hn
  | cons n ns ih =>
    rw [Node.optionsAll, List.mem_append]
    rcases List.mem_cons.1 hn with rfl | hn
    · exact .inl ho
    · exact .inr (ih hn)

theorem Target.mem_optionsAll {σ : Type} {target : Target σ} {targets : List (Target σ)}
    (ht : target ∈ targets) {o : Options} (ho : o ∈ target.options) : o ∈ Target.optionsAll targets := by
  induction targets with
  | nil => cases ht
  | cons t ts ih =>
    rw [Target.optionsAll, List.mem_append]
    rcases List.mem_cons.1 ht with rfl | ht
    · exact .inl ho
    · exact .inr (ih ht)

end Template

open Template (Node Options Primary Target)

/-! ## The targets of items -/

open Template (ListFunction)

namespace Outcome

def items : Outcome → List Item
  | one item => [item]
  | many items => items

theorem elements_eq (o : Outcome) : o.elements = o.items.flatMap elements.flat := by
  cases o with
  | one item => simp [elements, items]
  | many items => rfl

theorem apply_mem_items {o : Outcome} {target : Target Span} {element : Value} {index : Nat}
    (h : Item.apply target element index ∈ o.elements) : Item.apply target element index ∈ o.items := by
  rw [elements_eq, List.mem_flatMap] at h
  obtain ⟨item, hitem, h⟩ := h
  cases item with
  | value v => simp [elements.flat] at h
  | call name args => simp [elements.flat] at h
  | apply t e i =>
    rw [elements.flat.eq_2 _ (by simp), List.mem_singleton] at h
    rwa [h]

theorem eq_value_of_mem_ofValue {v : Value} {item : Item} (h : item ∈ (ofValue v).items) :
    ∃ u, item = .value u := by
  cases v with
  | list vs =>
    obtain ⟨u, _, rfl⟩ := List.mem_map.1 h
    exact ⟨u, rfl⟩
  | bool b => exact ⟨_, List.mem_singleton.1 h⟩
  | int n => exact ⟨_, List.mem_singleton.1 h⟩
  | float x => exact ⟨_, List.mem_singleton.1 h⟩
  | str s => exact ⟨_, List.mem_singleton.1 h⟩
  | object m => exact ⟨_, List.mem_singleton.1 h⟩
  | aggregate fields => exact ⟨_, List.mem_singleton.1 h⟩

/-- A list function only picks items, or counts them. -/
theorem mem_applyFunction {function : ListFunction} {o : Outcome} {item : Item}
    (h : item ∈ (o.applyFunction function).items) : item ∈ o.items ∨ ∃ n, item = .value (.int n) := by
  cases function with
  | length => cases o <;> exact .inr ⟨_, List.mem_singleton.1 h⟩
  | first =>
    match o, h with
    | one _, h => exact .inl h
    | many [], h => exact .inl h
    | many (x :: _), h => exact .inl (List.mem_singleton.1 h ▸ List.mem_cons_self)
  | last =>
    cases o with
    | one _ => exact .inl h
    | many is =>
      rw [applyFunction] at h
      split at h
      · next x hx => exact .inl (List.mem_singleton.1 h ▸ List.mem_of_getLast? hx)
      · cases h
  | rest =>
    cases o with
    | one _ => cases h
    | many is => exact .inl (List.mem_of_mem_tail h)
  | trunc =>
    cases o with
    | one _ => cases h
    | many is => exact .inl ((List.dropLast_sublist is).subset h)
  | reverse =>
    cases o with
    | one _ => exact .inl h
    | many is => exact .inl (List.mem_reverse.1 h)

end Outcome

namespace Library

section
variable {lib : Library} {c : RenderConfig} {enter : Runner} {f : Frame}

theorem not_apply_of_primary {p : Primary Span} {o : Outcome} (h : lib.primary f p = .ok o)
    (target : Target Span) (element : Value) (index : Nat) : .apply target element index ∉ o.items := by
  intro hmem
  cases p with
  | path p =>
    obtain ⟨v, _, hv⟩ := bind_eq_ok.1 h
    cases hv
    obtain ⟨u, hu⟩ := Outcome.eq_value_of_mem_ofValue hmem
    cases hu
  | call name place args =>
    cases h
    cases List.mem_singleton.1 hmem
  | function function arg =>
    obtain ⟨v, _, hv⟩ := bind_eq_ok.1 h
    cases hv
    rcases Outcome.mem_applyFunction hmem with hmem | ⟨n, hn⟩
    · obtain ⟨u, hu⟩ := Outcome.eq_value_of_mem_ofValue hmem
      cases hu
    · cases hn

theorem eq_of_apply_mem_applyTarget {o o' : Outcome} {target target' : Target Span} {element : Value}
    {index : Nat} (h : lib.applyTarget c enter f o target = .ok o')
    (hmem : .apply target' element index ∈ o'.items) : target' = target := by
  cases o with
  | one item =>
    obtain ⟨v, _, hv⟩ := bind_eq_ok.1 h
    cases hv
    cases List.mem_singleton.1 hmem
    rfl
  | many items =>
    obtain ⟨vs, _, hv⟩ := bind_eq_ok.1 h
    cases hv
    obtain ⟨i, hi, hitem⟩ := List.mem_mapIdx.1 hmem
    cases hitem
    rfl

theorem mem_targets_of_foldlM {targets : List (Target Span)} {init o : Outcome}
    (h : targets.foldlM (lib.applyTarget c enter f) init = .ok o) {target : Target Span} {element : Value}
    {index : Nat} (hmem : .apply target element index ∈ o.items) :
    .apply target element index ∈ init.items ∨ target ∈ targets := by
  induction targets generalizing init with
  | nil =>
    cases h
    exact .inl hmem
  | cons t ts ih =>
    rw [List.foldlM_cons] at h
    obtain ⟨next, hnext, h⟩ := bind_eq_ok.1 h
    rcases ih h with hm | ht
    · exact .inr (eq_of_apply_mem_applyTarget hnext hm ▸ List.mem_cons_self)
    · exact .inr (List.mem_cons_of_mem _ ht)

/-- The items of an expression apply only targets of its own. -/
theorem mem_targets_of_outcome {p : Primary Span} {targets : List (Target Span)} {o : Outcome}
    (h : lib.outcome c enter f p targets = .ok o) {target : Target Span} {element : Value} {index : Nat}
    (hmem : .apply target element index ∈ o.elements) : target ∈ targets := by
  obtain ⟨start, hstart, h⟩ := bind_eq_ok.1 h
  rcases mem_targets_of_foldlM h (Outcome.apply_mem_items hmem) with hm | ht
  · exact absurd hm (not_apply_of_primary hstart target element index)
  · exact ht

end

/-! ## Expressions that are run -/

section
variable (lib : Library) (c : RenderConfig) (enter : Runner) (f : Frame)

/-- Running the nodes comes to this one: each one before it has a result, on some writer. -/
def Reaches (nodes : List (Node Span)) (node : Node Span) : Prop :=
  ∃ before after, nodes = before ++ node :: after ∧
    ∀ n ∈ before, ∃ w w', lib.runNode c enter f w n = .ok w'

/-- Running the node enters a body: that of a region, or that of an item which the node writes after other
items. -/
inductive Enters : Node Span → Entry → Prop where
  | slot {name : String} {place : Span} {entry : Entry} :
    lib.regionEntry f name none = some entry → Enters (.slot name place) entry
  | region {name : String} {body : List (Node Span)} {place : Span} {entry : Entry} :
    lib.regionEntry f name (some body) = some entry → Enters (.region name body place) entry
  | item {p : Primary Span} {targets : List (Target Span)} {o : Options} {place : Span} {outcome : Outcome}
      {before after : List Item} {item : Item} {entry : Entry} :
    lib.outcome c enter f p targets = .ok outcome → outcome.elements = before ++ item :: after →
    (∀ x ∈ before, ∃ w w', lib.writeItem c enter f o.format x w = .ok w') →
    lib.entryOf? f item = some (.ok entry) → Enters (.expression p targets o place) entry

end

/-- Running the nodes with so many levels left writes elements under the options. -/
inductive Executes (lib : Library) (c : RenderConfig) : Nat → Frame → List (Node Span) → Options → Prop where
  | here {levels : Nat} {f : Frame} {nodes : List (Node Span)} {p : Primary Span}
      {targets : List (Target Span)} {o : Options} {place : Span} {outcome : Outcome} :
    lib.Reaches c (lib.nested c levels) f nodes (.expression p targets o place) →
    lib.outcome c (lib.nested c levels) f p targets = .ok outcome → Executes lib c levels f nodes o
  | inside {levels : Nat} {f : Frame} {nodes : List (Node Span)} {node : Node Span} {entry : Entry}
      {o : Options} :
    lib.Reaches c (lib.nested c (levels + 1)) f nodes node →
    lib.Enters c (lib.nested c (levels + 1)) f node entry →
    Executes lib c levels entry.frame entry.nodes o → Executes lib c (levels + 1) f nodes o

/-- A body that some template of the library has or that replaces a region. -/
def HasBody (lib : Library) (body : List (Node Span)) : Prop :=
  (∃ name t, lib.compiled name = .ok t ∧ body = t.nodes) ∨
    ∃ template region t, lib.override? template region = some t ∧ body = t.nodes

variable {lib : Library} {c : RenderConfig} {enter : Runner} {f : Frame}

theorem Reaches.mem {nodes : List (Node Span)} {node : Node Span} (h : lib.Reaches c enter f nodes node) :
    node ∈ nodes := by
  obtain ⟨before, after, rfl, -⟩ := h
  simp

theorem hasBody_of_callEntry {name : String} {args : List (Template.Argument Span)} {entry : Entry}
    (h : lib.callEntry f name args = .ok entry) : lib.HasBody entry.nodes := by
  obtain ⟨t, ht, h⟩ := bind_eq_ok.1 h
  obtain ⟨bindings, _, h⟩ := bind_eq_ok.1 h
  cases h
  exact .inl ⟨name, t, ht, rfl⟩

theorem hasBody_of_targetEntry {target : Target Span} {element : Value} {index : Nat} {entry : Entry}
    (h : lib.targetEntry f target element index = .ok entry) :
    Node.optionsAll entry.nodes = target.options ∨ lib.HasBody entry.nodes := by
  cases target with
  | anonymous names body place =>
    cases h
    exact .inl rfl
  | named name place =>
    obtain ⟨t, ht, h⟩ := bind_eq_ok.1 h
    cases h
    exact .inr (.inl ⟨name, t, ht, rfl⟩)

theorem hasBody_of_regionEntry {name : String} {body : Option (List (Node Span))} {entry : Entry}
    (h : lib.regionEntry f name body = some entry) : body = some entry.nodes ∨ lib.HasBody entry.nodes := by
  rw [regionEntry] at h
  cases ho : lib.override? f.template name with
  | none =>
    rw [ho] at h
    obtain ⟨nodes, hnodes, rfl⟩ := Option.map_eq_some_iff.1 h
    exact .inl hnodes
  | some t =>
    rw [ho] at h
    cases h
    exact .inr (.inr ⟨f.template, name, t, ho, rfl⟩)

/-- The options in a body that is entered stand in the node or in a body of the library. -/
theorem Enters.mem_options {node : Node Span} {entry : Entry} (h : lib.Enters c enter f node entry)
    {o : Options} (ho : o ∈ Node.optionsAll entry.nodes) :
    o ∈ node.options ∨ ∃ body, lib.HasBody body ∧ o ∈ Node.optionsAll body := by
  cases h with
  | slot he =>
    rcases hasBody_of_regionEntry he with hb | hb
    · cases hb
    · exact .inr ⟨_, hb, ho⟩
  | region he =>
    rcases hasBody_of_regionEntry he with hb | hb
    · cases hb
      exact .inl ho
    · exact .inr ⟨_, hb, ho⟩
  | @item p targets _ place outcome before after item entry houtcome helements _ hi =>
    cases item with
    | value v => cases hi
    | call name args =>
      rw [entryOf?, Option.some_inj] at hi
      exact .inr ⟨_, hasBody_of_callEntry hi, ho⟩
    | apply target element index =>
      rw [entryOf?, Option.some_inj] at hi
      rcases hasBody_of_targetEntry hi with hb | hb
      · have hmem : Item.apply target element index ∈ outcome.elements := by simp [helements]
        have htarget := mem_targets_of_outcome houtcome hmem
        exact .inl (List.mem_cons_of_mem _ (Target.mem_optionsAll htarget (hb ▸ ho)))
      · exact .inr ⟨_, hb, ho⟩

/-- Every expression that a run writes stands in the nodes that are run or in a body of the library. -/
theorem Executes.mem_options {levels : Nat} {nodes : List (Node Span)} {o : Options}
    (h : lib.Executes c levels f nodes o) :
    o ∈ Node.optionsAll nodes ∨ ∃ body, lib.HasBody body ∧ o ∈ Node.optionsAll body := by
  induction h with
  | here hnode _ => exact .inl (Node.mem_optionsAll hnode.mem List.mem_cons_self)
  | inside hnode hentry _ ih =>
    rcases ih with ho | hbody
    · rcases hentry.mem_options ho with ho | hbody
      · exact .inl (Node.mem_optionsAll hnode.mem ho)
      · exact .inr hbody
    · exact .inr hbody

end Library

end Stencil
