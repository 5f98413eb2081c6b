import Stencil.Template.Node

/-!
# Trees without places

The tree of a template is generic in what it says about places. `Node.map` changes the places and the options
throughout a tree; `Node.eraseAll` leaves only the template itself. Trees that are the same under
`Options.plain` differ in their `wrap` and `anchor` options at most.
-/

namespace Stencil.Template

variable {σ τ : Type}

/-- The path with other places. -/
def Path.map (place : σ → τ) (p : Path σ) : Path τ :=
  ⟨p.root, place p.place, p.segments⟩

def Argument.map (place : σ → τ) : Argument σ → Argument τ
  | .path p => .path (p.map place)
  | .literal text => .literal text

def Primary.map (place : σ → τ) : Primary σ → Primary τ
  | .path p => .path (p.map place)
  | .call name at_ args => .call name (place at_) (args.map (Argument.map place))
  | .function fn arg => .function fn (arg.map place)

section
variable (place : σ → τ) (options : Options → Options)

mutual

/-- The node with other places and options. -/
def Node.map : Node σ → Node τ
  | .literal text at_ => .literal text (place at_)
  | .slot name at_ => .slot name (place at_)
  | .region name body at_ => .region name (Node.mapAll body) (place at_)
  | .expression p targets o at_ => .expression (p.map place) (Target.mapAll targets) (options o) (place at_)

def Node.mapAll : List (Node σ) → List (Node τ)
  | [] => []
  | n :: ns => Node.map n :: Node.mapAll ns

def Target.map : Target σ → Target τ
  | .anonymous params body at_ => .anonymous params (Node.mapAll body) (place at_)
  | .named name at_ => .named name (place at_)

def Target.mapAll : List (Target σ) → List (Target τ)
  | [] => []
  | t :: ts => Target.map t :: Target.mapAll ts

end

theorem Node.mapAll_eq (ns : List (Node σ)) :
    Node.mapAll place options ns = ns.map (Node.map place options) := by
  induction ns with
  | nil => rfl
  | cons n ns ih => rw [Node.mapAll, List.map_cons, ih]

theorem Target.mapAll_eq (ts : List (Target σ)) :
    Target.mapAll place options ts = ts.map (Target.map place options) := by
  induction ts with
  | nil => rfl
  | cons t ts ih => rw [Target.mapAll, List.map_cons, ih]

end

/-- The template that a tree is of, without the places of its parts. -/
def Node.eraseAll : List (Node σ) → List (Node Unit) :=
  Node.mapAll (fun _ => ()) id

/-- The text in front of a template as literal text of it; no text is no literal. -/
def Node.leading (cs : List Char) : List (Node Unit) :=
  if cs.isEmpty then [] else [.literal (String.ofList cs) ()]

/-- The options without what they say about the layout. -/
def Options.plain (o : Options) : Options :=
  { o with wrap := none, anchor := false }

/-- The nodes differ only in places and in what is not kept of their options. -/
def Node.Same (kept : Options → Options) (ns ns' : List (Node σ)) : Prop :=
  Node.mapAll (fun _ => ()) kept ns = Node.mapAll (fun _ => ()) kept ns'

end Stencil.Template
