/-!
# The tree of a template

A template is a list of nodes. The tree is generic in what it says about places: the parser marks each
part with its span in the source, and a tree marked with `Unit` is the template itself.
-/

namespace Stencil.Template

/-- One step of a path from a value to a part of it. -/
inductive Segment where
  | property (name : String)
  | index (n : Nat)
deriving DecidableEq, Repr

/-- The segment as a name that adaptors are asked for. -/
def Segment.name : Segment → String
  | property name => name
  | index n => toString n

/-- An attribute and the way from its value to a part of it. -/
structure Path (σ : Type) where
  root : String
  place : σ
  segments : List Segment
deriving DecidableEq, Repr

inductive Argument (σ : Type) where
  | path (path : Path σ)
  | literal (text : String)
deriving DecidableEq, Repr

/-- The functions on lists (`Function`). -/
inductive ListFunction where
  | first
  | last
  /-- All elements but the first. -/
  | rest
  /-- All elements but the last. -/
  | trunc
  | length
  | reverse
deriving DecidableEq, Repr

def ListFunction.name : ListFunction → String
  | first => "first"
  | last => "last"
  | rest => "rest"
  | trunc => "trunc"
  | length => "length"
  | reverse => "reverse"

def ListFunction.ofName? (name : String) : Option ListFunction :=
  [first, last, rest, trunc, length, reverse].find? (·.name == name)

/-- What an expression starts from. -/
inductive Primary (σ : Type) where
  | path (path : Path σ)
  | call (name : String) (place : σ) (arguments : List (Argument σ))
  | function (function : ListFunction) (argument : Argument σ)
deriving DecidableEq, Repr

/-- Where a list is broken into lines. -/
inductive Wrap where
  /-- At the width of the render call, if it has one. -/
  | lineWidth
  | width (n : Nat)
deriving DecidableEq, Repr

structure Options where
  format : Option String := none
  wrap : Option Wrap := none
  anchor : Bool := false
  separator : Option String := none
deriving DecidableEq, Repr

mutual

/-- A piece of a template. -/
inductive Node (σ : Type) where
  | literal (text : String) (place : σ)
  /-- A region without text of its own. -/
  | slot (name : String) (place : σ)
  | region (name : String) (body : List (Node σ)) (place : σ)
  | expression (primary : Primary σ) (targets : List (Target σ)) (options : Options) (place : σ)

/-- What is applied to each element of an expression (`MapTarget`). -/
inductive Target (σ : Type) where
  | anonymous (params : List String) (body : List (Node σ)) (place : σ)
  | named (name : String) (place : σ)

end

mutual

/-- The names of the regions in a node, in the order of the source. -/
def Node.regions {σ : Type} : Node σ → List String
  | .literal _ _ => []
  | .slot name _ => [name]
  | .region name body _ => name :: Node.regionsAll body
  | .expression _ targets _ _ => Target.regionsAll targets

def Node.regionsAll {σ : Type} : List (Node σ) → List String
  | [] => []
  | n :: ns => Node.regions n ++ Node.regionsAll ns

def Target.regions {σ : Type} : Target σ → List String
  | .anonymous _ body _ => Node.regionsAll body
  | .named _ _ => []

def Target.regionsAll {σ : Type} : List (Target σ) → List String
  | [] => []
  | t :: ts => Target.regions t ++ Target.regionsAll ts

end

end Stencil.Template
