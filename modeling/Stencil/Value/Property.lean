import Stencil.Error
import Stencil.Text.Case
import Stencil.Value.Registry

/-!
# Properties of values

An adaptor reads a property off a value. Which adaptor reads is decided by the type of the value. The
object adaptor asks an object for a field, then for an accessor and last for an element; the aggregate
adaptor knows the fields of aggregates only.
-/

namespace Stencil

/-- Reads the property of a name off a value (`ModelAdaptor`). -/
abbrev Adaptor := Value → String → Except Error Value

namespace Adaptor

def answer (v : Value) (property : String) : Option Value → Except Error Value
  | some found => .ok found
  | none => .error (.noSuchProperty v.typeName property)

/-- The accessors that can stand for a property, in the order in which they are asked for. -/
def accessorNames (property : String) : List String :=
  let base := String.ofList (accessorName property.toList)
  ["get_" ++ base, "is_" ++ base, "has_" ++ base, base]

/-- A property of an object (`from_model`): a field, else an accessor, else an element. -/
def ofModel? (m : Model Value) (property : String) : Option Value :=
  m.field property <|> (accessorNames property).findSome? m.accessor <|>
    (index? property.toList).bind m.element

/-- Reads properties of objects, fields of aggregates and elements of lists (`ObjectModelAdaptor`). -/
def object : Adaptor := fun v property =>
  answer v property <|
    match v with
    | .object m => ofModel? m property
    | .aggregate fields => fields.lookup property
    | .list items => (index? property.toList).bind (items[·]?)
    | _ => none

/-- Reads fields of aggregates (`AggregateAdaptor`). -/
def aggregate : Adaptor := fun v property =>
  answer v property <|
    match v with
    | .aggregate fields => fields.lookup property
    | _ => none

end Adaptor

/-- Adaptors by type. -/
abbrev Adaptors := Registry Adaptor

namespace Adaptors

/-- The adaptors of a new group: one for aggregates and one for all other values. -/
def standard : Adaptors :=
  (({} : Adaptors).register .aggregate Adaptor.aggregate).register .any Adaptor.object

/-- The property of a value that the adaptor of its type finds (`get_property`). -/
def property (r : Adaptors) (v : Value) (name : String) : Except Error Value :=
  match r.find? v with
  | some adaptor => adaptor v name
  | none => .error (.noSuchProperty v.typeName name)

end Adaptors

end Stencil
