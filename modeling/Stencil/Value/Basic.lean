import Stencil.Dictionary
import Stencil.Number.Decimal

/-!
# Values of attributes

A value is a scalar, a list, an aggregate of named values, or an application object. The engine knows
an object only through what it exposes: fields, accessors and elements, each a partial function, and the
types it wants to be looked up as.
-/

namespace Stencil

/-- A type by which adaptors and renderers are looked up. -/
inductive TypeKey where
  | bool
  | int
  | float
  | str
  | list
  | aggregate
  /-- All numbers: the supertype of integers and floating-point numbers. -/
  | number
  | any
  | named (name : String)
deriving DecidableEq, Repr

/-- What an application object exposes to templates. The identity tells objects apart: two objects are
equal exactly when it is the same. -/
structure Model (α : Type) where
  typeName : String
  /-- The types the object is also looked up as, nearest first. -/
  supertypes : List TypeKey := []
  identity : Nat
  text : String
  field : String → Option α := fun _ => none
  accessor : String → Option α := fun _ => none
  element : Nat → Option α := fun _ => none

/-- The value of an attribute. -/
inductive Value where
  | bool (b : Bool)
  | int (n : Int)
  | float (x : Binary64)
  | str (s : String)
  | object (model : Model Value)
  | list (items : List Value)
  /-- Named values, in the order of their declaration. -/
  | aggregate (fields : List (String × Value))

instance : Inhabited Value := ⟨.bool false⟩

namespace Value

def isList : Value → Bool
  | list _ => true
  | _ => false

/-- The exact type of a value. -/
def typeKey : Value → TypeKey
  | bool _ => .bool
  | int _ => .int
  | float _ => .float
  | str _ => .str
  | object m => .named m.typeName
  | list _ => .list
  | aggregate _ => .aggregate

/-- The name of a value's type in messages. -/
def typeName : Value → String
  | bool _ => "bool"
  | int _ => "integer"
  | float _ => "float"
  | str _ => "string"
  | object m => m.typeName
  | list _ => "list"
  | aggregate _ => "aggregate"

/-- The types a value is looked up by: its own, its supertypes from the nearest on, then `TypeKey.any`. -/
def lineage (v : Value) : List TypeKey :=
  let above := match v with
    | int _ => [.number]
    | float _ => [.number]
    | object m => m.supertypes
    | _ => []
  v.typeKey :: above ++ [.any]

mutual

/-- The plain text of a value. Lists stand in brackets and aggregates in braces. -/
def text : Value → String
  | bool b => if b then "true" else "false"
  | int n => toString n
  | float x => String.ofList x.text
  | str s => s
  | object m => m.text
  | list items => "[" ++ ", ".intercalate (texts items) ++ "]"
  | aggregate fields => "\x7b" ++ ", ".intercalate (fieldTexts fields) ++ "\x7d"

def texts : List Value → List String
  | [] => []
  | v :: vs => text v :: texts vs

def fieldTexts : List (String × Value) → List String
  | [] => []
  | (name, v) :: fields => (name ++ "=" ++ text v) :: fieldTexts fields

end

mutual

/-- Equality of values. Numbers of different types differ, lists are compared element by element,
aggregates by their fields in any order, objects by identity. -/
def equals : Value → Value → Bool
  | bool a, bool b => a == b
  | int a, int b => a == b
  | float a, float b => a.equals b
  | str a, str b => a == b
  | object a, object b => a.identity == b.identity
  | list as, list bs => equalLists as bs
  | aggregate as, aggregate bs => as.length == bs.length && equalFields as bs
  | _, _ => false

def equalLists : List Value → List Value → Bool
  | [], [] => true
  | a :: as, b :: bs => equals a b && equalLists as bs
  | _, _ => false

/-- Whether every field of the first aggregate has an equal one in the second. -/
def equalFields : List (String × Value) → List (String × Value) → Bool
  | [], _ => true
  | (name, a) :: as, bs =>
    (match bs.lookup name with
      | some b => equals a b
      | none => false) && equalFields as bs

end

mutual

/-- The values that are not lists inside a value, from left to right: a value that is no list is its own
only leaf. -/
def leaves : Value → List Value
  | list items => leavesAll items
  | v => [v]

def leavesAll : List Value → List Value
  | [] => []
  | v :: vs => leaves v ++ leavesAll vs

end

end Value

end Stencil
