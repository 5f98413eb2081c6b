import Stencil.Attributes.AggregateSpec

/-!
# Attributes of an instance

A store (`AttributeStore`) binds names to values, in the order in which the names were first bound. A list that was
given as one value and a list that was built by adding values look the same, so beside the values the store keeps the
set of the names whose list was built by adding. Adding to a name of that set extends its list; adding to any other
bound name makes a list of the value from before and the new one. Every operation has to keep the set in step with
the values.
-/

namespace Stencil

/-- The attributes of an instance, or of one level of a scope (`AttributeStore`). -/
structure Store where
  /-- The values, in the order in which their names were first bound. -/
  attributes : List (String × Value) := []
  /-- The names whose list was built by adding. A list that was bound as one value is kept as one element. -/
  accumulated : List String := []

/-- A change of a store that may stop with an error; the store stays as it was changed up to there. -/
abbrev Storing := ExceptT Error (StateM Store)

namespace Store

def empty : Store := {}

def get? (s : Store) (name : String) : Option Value :=
  s.attributes.lookup name

def contains (s : Store) (name : String) : Bool :=
  Dictionary.contains name s.attributes

/-- The value of a name that is given one more value (`append`). -/
def append (existing v : Value) (accumulated : Bool) : Value :=
  match existing, accumulated with
  | .list items, true => .list (items ++ [v])
  | bound, _ => .list [bound, v]

/-- Enters a name in a set of names, at the end. -/
def mark (name : String) (names : List String) : List String :=
  if names.contains name then names else names ++ [name]

/-- Takes a name out of a set of names; the others keep their order. -/
def unmark (name : String) (names : List String) : List String :=
  names.filter (· != name)

/-- Binds a name to a value, whatever it was bound to. -/
def set (s : Store) (name : String) (v : Value) : Store where
  attributes := Dictionary.insert name v s.attributes
  accumulated := unmark name s.accumulated

/-- Adds a value to a name: an unbound name is bound to it, and a bound one has a list from now on. -/
def add (s : Store) (name : String) (v : Value) : Store :=
  match s.attributes.lookup name with
  | none => { s with attributes := Dictionary.insert name v s.attributes }
  | some existing =>
    { attributes := Dictionary.insert name (append existing v (s.accumulated.contains name)) s.attributes
      accumulated := mark name s.accumulated }

/-- Adds an aggregate to the list of a name: an unbound name is bound to a list of one element. -/
def addToList (s : Store) (name : String) (v : Value) : Store :=
  let value := match s.attributes.lookup name with
    | none => .list [v]
    | some existing => append existing v (s.accumulated.contains name)
  { attributes := Dictionary.insert name value s.attributes, accumulated := mark name s.accumulated }

/-- Adds the aggregate of a spec and its values to the attribute that the spec names (`add_aggregate`). -/
def addAggregate (spec : String) (values : List Value) : Storing Unit :=
  match AggregateSpec.parse spec.toList with
  | .error fault => throw (.badAggregateSpec spec fault)
  | .ok parsed => do
    let v ← parsed.aggregate values
    modify (·.addToList parsed.name v)

def remove (s : Store) (name : String) : Store where
  attributes := Dictionary.erase name s.attributes
  accumulated := unmark name s.accumulated

/-- The attributes and their values, in the order in which the names were first bound (`iter`). -/
def toList (s : Store) : List (String × Value) :=
  s.attributes

/-- The store that binds the names one after the other. -/
def ofList (pairs : List (String × Value)) : Store :=
  pairs.foldl (fun s (name, v) => s.set name v) empty

end Store

end Stencil
