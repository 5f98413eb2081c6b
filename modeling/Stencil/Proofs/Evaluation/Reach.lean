import Mathlib.Logic.Relation
import Stencil.Evaluation.Run

/-!
# What a run can come to

A run of a template runs other bodies one level deeper: its anonymous targets, the text of its regions or what
replaces it, and the templates that it calls or has as targets. `Library.entered` lists them, and
`Library.MayRun` is what comes of it in any number of steps. Both look at the trees only, so they have every
body that some attributes could lead to. `Library.mentioned` lists the attributes that a body asks for by their
names.
-/

namespace Stencil

/-! ## Nodes without the bodies that stand in them -/

namespace Template

variable {σ : Type}

def Argument.root? : Argument σ → Option String
  | .path p => some p.root
  | .literal _ => none

def Primary.roots : Primary σ → List String
  | .path p => [p.root]
  | .call _ _ args => args.filterMap Argument.root?
  | .function _ arg => arg.root?.toList

def Primary.callee? : Primary σ → Option String
  | .call name _ _ => some name
  | _ => none

def Target.template? : Target σ → Option String
  | .named name _ => some name
  | .anonymous _ _ _ => none

def Target.body? : Target σ → Option (List (Node σ))
  | .anonymous _ body _ => some body
  | .named _ _ => none

namespace Node

def roots : Node σ → List String
  | expression p _ _ _ => p.roots
  | _ => []

/-- The template that a node calls without arguments. -/
def bareCall? : Node σ → Option String
  | expression (.call name _ []) _ _ _ => some name
  | _ => none

def invoked : Node σ → List String
  | expression p targets _ _ => p.callee?.toList ++ targets.filterMap Target.template?
  | _ => []

def region? : Node σ → Option String
  | slot name _ => some name
  | region name _ _ => some name
  | _ => none

def inner : Node σ → List (List (Node σ))
  | region _ body _ => [body]
  | expression _ targets _ _ => targets.filterMap Target.body?
  | _ => []

end Node

end Template

open Template (Argument Compiled Node Options Primary Target)

/-! ## Bodies -/

/-- Nodes, and the name of the template that runs them. -/
structure Body where
  template : String
  nodes : List (Node Span)

def Template.Compiled.body (t : Compiled) : Body :=
  ⟨t.name, t.nodes⟩

def Entry.body (e : Entry) : Body :=
  ⟨e.frame.template, e.nodes⟩

def Body.invoked (b : Body) : List String :=
  b.nodes.flatMap Node.invoked

/-- The regions of a body that do not stand in another body. -/
def Body.regions (b : Body) : List String :=
  b.nodes.filterMap Node.region?

namespace Library

/-- The body of a template that is declared and well-formed. -/
def body? (lib : Library) (name : String) : Option Body :=
  (lib.compiled name).toOption.map Compiled.body

def defaulted (lib : Library) (name : String) : List String :=
  match lib.compiled name with
  | .ok t => (t.parameters.filter (·.default?.isSome)).map (·.name)
  | .error _ => []

/-- The bodies that a body may run one level deeper. What stands in it, and what replaces its regions, runs in
the same template. -/
def entered (lib : Library) (b : Body) : List Body :=
  b.nodes.flatMap fun node =>
    node.inner.map (Body.mk b.template) ++
      (node.region?.bind (lib.override? b.template)).toList.map (fun t => Body.mk b.template t.nodes) ++
      node.invoked.filterMap lib.body?

/-- The second body is the first, or one that it may run at any depth. -/
abbrev MayRun (lib : Library) : Body → Body → Prop :=
  Relation.ReflTransGen fun b b' => b' ∈ lib.entered b

/-- Whether the test holds of every body that a body may run, and all of them are less deep than told. -/
def allWithin (lib : Library) (test : Body → Bool) : (depth : Nat) → Body → Bool
  | 0, _ => false
  | depth + 1, b => test b && (lib.entered b).all (lib.allWithin test depth)

/-- The attributes that a body asks for: the roots of its paths, and, where it calls a template without
arguments, the parameters that have a default. -/
def mentioned (lib : Library) (b : Body) : List String :=
  b.nodes.flatMap fun node => node.roots ++ node.bareCall?.toList.flatMap lib.defaulted

section
variable {lib : Library} {b : Body}

theorem mem_entered {node : Node Span} (hnode : node ∈ b.nodes) {b' : Body}
    (h : b' ∈ node.inner.map (Body.mk b.template) ∨
      b' ∈ (node.region?.bind (lib.override? b.template)).toList.map (fun t => Body.mk b.template t.nodes) ∨
      b' ∈ node.invoked.filterMap lib.body?) : b' ∈ lib.entered b := by
  refine List.mem_flatMap.2 ⟨node, hnode, ?_⟩
  rwa [List.append_assoc, List.mem_append, List.mem_append]

theorem mem_entered_of_inner {node : Node Span} (hnode : node ∈ b.nodes) {body : List (Node Span)}
    (h : body ∈ node.inner) : ⟨b.template, body⟩ ∈ lib.entered b :=
  mem_entered hnode (.inl (List.mem_map.2 ⟨body, h, rfl⟩))

theorem mem_entered_of_override? {node : Node Span} (hnode : node ∈ b.nodes) {name : String}
    (hname : node.region? = some name) {t : Compiled} (h : lib.override? b.template name = some t) :
    ⟨b.template, t.nodes⟩ ∈ lib.entered b := by
  refine mem_entered hnode (.inr (.inl (List.mem_map.2 ⟨t, ?_, rfl⟩)))
  rw [hname]
  exact Option.mem_toList.2 h

theorem mem_entered_of_compiled {node : Node Span} (hnode : node ∈ b.nodes) {name : String}
    (hname : name ∈ node.invoked) {t : Compiled} (h : lib.compiled name = .ok t) :
    t.body ∈ lib.entered b := by
  refine mem_entered hnode (.inr (.inr (List.mem_filterMap.2 ⟨name, hname, ?_⟩)))
  rw [body?, h]
  rfl

/-- Where another template is entered, it is invoked. -/
theorem of_mem_entered {b' : Body} (h : b' ∈ lib.entered b) :
    b'.template = b.template ∨ ∃ name ∈ b.invoked, lib.body? name = some b' := by
  obtain ⟨node, hnode, h⟩ := List.mem_flatMap.1 h
  rw [List.append_assoc, List.mem_append, List.mem_append] at h
  rcases h with h | h | h
  · obtain ⟨body, -, rfl⟩ := List.mem_map.1 h
    exact .inl rfl
  · obtain ⟨t, -, rfl⟩ := List.mem_map.1 h
    exact .inl rfl
  · obtain ⟨name, hname, hbody⟩ := List.mem_filterMap.1 h
    exact .inr ⟨name, List.mem_flatMap.2 ⟨node, hnode, hname⟩, hbody⟩

theorem mem_mentioned_of_roots {node : Node Span} (hnode : node ∈ b.nodes) {name : String}
    (h : name ∈ node.roots) : name ∈ lib.mentioned b :=
  List.mem_flatMap.2 ⟨node, hnode, List.mem_append_left _ h⟩

theorem mem_mentioned_of_default {node : Node Span} (hnode : node ∈ b.nodes) {callee : String}
    (hcallee : node.bareCall? = some callee) {t : Compiled} (ht : lib.compiled callee = .ok t)
    {p : Template.Parameter} (hp : p ∈ t.parameters) (hdefault : p.default?.isSome) :
    p.name ∈ lib.mentioned b := by
  refine List.mem_flatMap.2 ⟨node, hnode, List.mem_append_right _ ?_⟩
  refine List.mem_flatMap.2 ⟨callee, Option.mem_toList.2 hcallee, ?_⟩
  rw [defaulted, ht]
  exact List.mem_map.2 ⟨p, List.mem_filter.2 ⟨hp, hdefault⟩, rfl⟩

/-- What is checked within some depth is true of every body at any depth. -/
theorem MayRun.of_allWithin {test : Body → Bool} {depth : Nat} {b' : Body} (h : lib.MayRun b b')
    (hall : lib.allWithin test depth b = true) : test b' = true := by
  induction depth generalizing b with
  | zero => cases hall
  | succ depth ih =>
    rw [allWithin, Bool.and_eq_true, List.all_eq_true] at hall
    rcases Relation.ReflTransGen.cases_head h with rfl | ⟨next, hstep, hrest⟩
    · exact hall.1
    · exact ih hrest (hall.2 next hstep)

end

end Library

end Stencil
