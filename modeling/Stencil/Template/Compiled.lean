import Stencil.Error
import Stencil.Template.Parse

/-!
# Templates with a name

A template ready to run has a name, its tree, and the parameters it declares. A template made from source
text alone declares none and accepts every attribute.
-/

namespace Stencil.Template

structure Parameter where
  name : String
  default? : Option String := none
deriving DecidableEq, Repr

/-- A template ready to run (`CompiledTemplate`). -/
structure Compiled where
  name : String
  /-- The declared parameters, if the template declares any list of them. -/
  params : Option (List Parameter)
  nodes : List (Node Span)
  delimiters : Delimiters
  source : String

namespace Compiled

/-- Whether an attribute of this name may be bound. -/
def accepts (t : Compiled) (name : String) : Bool :=
  match t.params with
  | some params => params.any (·.name == name)
  | none => true

/-- The declared parameters; none where no list is declared. -/
def parameters (t : Compiled) : List Parameter :=
  t.params.getD []

/-- The names of the regions in the tree, in the order of the source. -/
def regions (t : Compiled) : List String :=
  Node.regionsAll t.nodes

end Compiled

/-- The template of a name that a source has, if the source is well-formed. -/
def compile (name source : String) (params : Option (List Parameter)) (delimiters : Delimiters) :
    Except Error Compiled :=
  match parse delimiters source.toList with
  | .ok nodes => .ok { name, params, nodes, delimiters, source }
  | .error e => .error (.malformed name e)

end Stencil.Template
