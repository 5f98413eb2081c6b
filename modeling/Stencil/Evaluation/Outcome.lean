import Stencil.Template.Node
import Stencil.Text.Span
import Stencil.Value.Basic

/-!
# What an expression comes to

Before it is written, an expression comes to one item or to many. An item is a value, or a template that
is still to be run where its output is going to stand. A list makes many items of its elements; the list
functions work on them.
-/

namespace Stencil

open Template (Argument ListFunction Target)

/-- Something to be written. -/
inductive Item where
  | value (v : Value)
  | call (name : String) (arguments : List (Argument Span))
  /-- The output of a target for an element at an index. -/
  | apply (target : Target Span) (element : Value) (index : Nat)

/-- What an expression comes to (`Resolved`). -/
inductive Outcome where
  | one (item : Item)
  | many (items : List Item)

namespace Outcome

/-- A value as an outcome: a list is many items. -/
def ofValue : Value → Outcome
  | .list items => many (items.map .value)
  | v => one (.value v)

/-- The items that are written, without lists (`flatten`): a list in a list counts by its elements. -/
def elements : Outcome → List Item
  | one item => flat item
  | many items => items.flatMap flat
where
  flat : Item → List Item
    | .value v => v.leaves.map .value
    | item => [item]

/-- A list function (`call_function`). A single item counts like a list of one: it is its own first, last and reverse,
and nothing is left of it without its first or its last. -/
def applyFunction : ListFunction → Outcome → Outcome
  | .length, many items => one (.value (.int items.length))
  | .length, one _ => one (.value (.int 1))
  | .first, many [] => many []
  | .first, many (item :: _) => one item
  | .last, many items =>
    match items.getLast? with
    | some item => one item
    | none => many []
  | .rest, many items => many items.tail
  | .trunc, many items => many items.dropLast
  | .reverse, many items => many items.reverse
  | .rest, one _ => many []
  | .trunc, one _ => many []
  | .first, one item => one item
  | .last, one item => one item
  | .reverse, one item => one item

end Outcome

end Stencil
