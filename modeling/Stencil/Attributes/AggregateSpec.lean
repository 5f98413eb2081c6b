import Stencil.Error
import Stencil.Text.Blank
import Stencil.Text.Word
import Stencil.Value.Basic

/-!
# Aggregate specs

An aggregate spec names an attribute and the fields of an aggregate, such as `items.{a, b}`. Blanks may
stand around every part.
-/

namespace Stencil

/-- The attribute and the fields that a spec names. -/
structure AggregateSpec where
  name : String
  /-- The fields, in order; a parsed spec has pairwise different ones. -/
  fields : List String
deriving DecidableEq, Repr

namespace AggregateSpec

def splitAtPeriod? (cs : List Char) : Option (List Char × List Char) :=
  match cs.dropWhile (· != '.') with
  | [] => none
  | _ :: rest => some (cs.takeWhile (· != '.'), rest)

def inBraces? (cs : List Char) : Option (List Char) :=
  match cs with
  | '\x7b' :: rest =>
    match rest.reverse with
    | '\x7d' :: inner => some inner.reverse
    | _ => none
  | _ => none

/-- Checks the fields from left to right: each is a word that was not listed before. `seen` holds the
fields already checked, in reverse. -/
def checkFields (seen : List String) : List (List Char) → Except SpecFault (List String)
  | [] => .ok seen.reverse
  | field :: rest =>
    let name := String.ofList field
    if !isWord field then .error (.badField name)
    else if seen.contains name then .error (.repeatedField name)
    else checkFields (name :: seen) rest

/-- Reads a spec (`parse_aggregate_spec`). -/
def parse (spec : List Char) : Except SpecFault AggregateSpec := do
  let some (name, rest) := splitAtPeriod? (trim spec) | .error .noFields
  let name := trim name
  unless isWord name do .error .badName
  let some inner := inBraces? (trim rest) | .error .noBraces
  let fields ← checkFields [] ((inner.splitOn ',').map trim)
  return ⟨String.ofList name, fields⟩

/-- The aggregate that gives the fields of a spec the values in order; there is one value for each (`from_fields`). A
field that is named again would have the later value. -/
def aggregate (spec : AggregateSpec) (values : List Value) : Except Error Value :=
  if values.length = spec.fields.length then .ok (.aggregate (Dictionary.ofPairs (spec.fields.zip values)))
  else .error (.aggregateArity spec.fields.length values.length)

end AggregateSpec

end Stencil
