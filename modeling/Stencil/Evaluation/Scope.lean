import Stencil.Attributes.Store
import Stencil.Template.Node
import Stencil.Value.Property

/-!
# Attributes in scope

A template sees its own attributes first, then those of the template that ran it, and so on outwards. A
path starts at an attribute in scope and takes a property or an element at each step; a property of a list
is the list of that property of its elements.
-/

namespace Stencil

open Template (Argument Path Segment)

/-- The stores of the running templates, innermost first. -/
abbrev Scope := List Store

/-- The attribute of a name: that of the innermost store that binds it. -/
def Scope.lookup (s : Scope) (name : String) : Option Value :=
  s.findSome? (·.get? name)

theorem Scope.lookup_cons (bindings : Store) (s : Scope) (name : String) :
    Scope.lookup (bindings :: s) name = (bindings.get? name).or (s.lookup name) := by
  rw [lookup, List.findSome?_cons, lookup]
  cases bindings.get? name <;> rfl

/-- The template that is running. -/
structure Frame where
  /-- The name of the running template, under which bodies for its regions are looked up. -/
  template : String
  scope : Scope

namespace Adaptors

mutual

/-- The property of a value; lists hand the question on to their elements (`property`). -/
def mapProperty (r : Adaptors) (name : String) : Value → Except Error Value
  | .list items => do return .list (← mapProperties r name items)
  | v => r.property v name

def mapProperties (r : Adaptors) (name : String) : List Value → Except Error (List Value)
  | [] => .ok []
  | v :: vs => do
    let w ← mapProperty r name v
    let ws ← mapProperties r name vs
    return w :: ws

end

/-- One step of a path. -/
def step (r : Adaptors) (v : Value) : Segment → Except Error Value
  | .property name => r.mapProperty name v
  | .index n =>
    match v with
    | .list items =>
      match items[n]? with
      | some item => .ok item
      | none => .error (.noSuchProperty v.typeName (toString n))
    | v => r.property v (toString n)

/-- The value at the end of a path (`resolve_path`). -/
def resolve {σ : Type} (r : Adaptors) (s : Scope) (p : Path σ) : Except Error Value :=
  match s.lookup p.root with
  | some v => p.segments.foldlM r.step v
  | none => .error (.noSuchAttribute p.root)

/-- The value of an argument (`eval_argument`). -/
def argument {σ : Type} (r : Adaptors) (s : Scope) : Argument σ → Except Error Value
  | .path p => r.resolve s p
  | .literal text => .ok (.str text)

end Adaptors

end Stencil
