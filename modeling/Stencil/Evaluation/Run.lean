import Stencil.Evaluation.Library
import Stencil.Evaluation.Outcome
import Stencil.Evaluation.Scope
import Stencil.Layout.Elements

/-!
# Running templates

A tree is run node by node onto a writer. Wherever a body is run inside another, a template, a target or
a region, the nesting gets one level deeper. The functions below run one level: they are given `enter`,
which runs a body one level further down. `nested` ties the knot by recursion on the levels that are left,
so running always ends, and running out of levels is an error like any other.
-/

namespace Stencil

open Template (Argument Compiled Node Options Parameter Primary Target)

/-- What a template is run under. -/
structure RenderConfig where
  locale : Locale := .root
  /-- The width at which lines break where an expression names none. -/
  lineWidth : Option Nat := none

/-- A body to be run one level deeper. -/
structure Entry where
  /-- The name in the error that nesting is too deep. -/
  label : String
  frame : Frame
  nodes : List (Node Span)

/-- Runs a body one level deeper. -/
abbrev Runner := Entry → Writer → Except Error Writer

/-- What stands for the element in a body without parameters. -/
def implicitElement : String := "it"

namespace Library

/-! ## Bindings -/

/-- The arguments of a call bound to the parameters in order. There are at most as many as parameters,
and at least as many as parameters without a default. A call without arguments binds nothing. -/
def bindArguments (lib : Library) (f : Frame) (name : String) (params : List Parameter)
    (args : List (Argument Span)) : Except Error Store :=
  let required := (params.filter (·.default?.isNone)).length
  if args.isEmpty then .ok .empty
  else if params.length < args.length ∨ args.length < required then
    .error (.argumentCount name params.length args.length)
  else (params.zip args).foldlM (fun s (p, a) => do
    return s.set p.name (← lib.adaptors.argument f.scope a)) .empty

/-- The bindings of a call with its defaults: a parameter without an argument has its default, unless the
call has no arguments and the attribute is in scope already. -/
def bindDefaults (f : Frame) (params : List Parameter) (called : Bool) (s : Store) : Store :=
  params.foldl (fun s p =>
    match p.default? with
    | none => s
    | some text =>
      if s.contains p.name || (!called && (f.scope.lookup p.name).isSome) then s
      else s.set p.name (.str text)) s

/-- The bindings of a target for an element: its index counted from one and from zero, then the element
under the first of the given names, and the index from one under the second. -/
def bindElement (names : List String) (element : Value) (index : Nat) : Store :=
  let counted := Value.int (index + 1 : Nat)
  let bound := match names with
    | [] => [(implicitElement, element)]
    | [name] => [(name, element)]
    | name :: indexName :: _ => [(name, element), (indexName, counted)]
  .ofList ([("i", counted), ("i0", Value.int index)] ++ bound)

/-! ## Bodies one level deeper -/

def templateEntry (f : Frame) (t : Compiled) (bindings : Store) : Entry where
  label := t.name
  frame := ⟨t.name, bindings :: f.scope⟩
  nodes := t.nodes

/-- The body that a call runs (`include`). -/
def callEntry (lib : Library) (f : Frame) (name : String) (args : List (Argument Span)) :
    Except Error Entry := do
  let callee ← lib.compiled name
  let bindings ← lib.bindArguments f name callee.parameters args
  return templateEntry f callee (bindDefaults f callee.parameters (!args.isEmpty) bindings)

/-- The body that a target runs for an element (`apply_one`). -/
def targetEntry (lib : Library) (f : Frame) (target : Target Span) (element : Value) (index : Nat) :
    Except Error Entry :=
  match target with
  | .anonymous names body _ =>
    .ok ⟨f.template, ⟨f.template, bindElement names element index :: f.scope⟩, body⟩
  | .named name _ => do
    let callee ← lib.compiled name
    let names := (callee.parameters.take 1).map (·.name)
    return templateEntry f callee (bindElement names element index)

/-- The body of a region (`exec_region`): the one that replaces it, else its own. A region without either runs none. -/
def regionEntry (lib : Library) (f : Frame) (name : String) (body : Option (List (Node Span))) :
    Option Entry :=
  let nodes := ((lib.override? f.template name).map (·.nodes)) <|> body
  nodes.map fun nodes => ⟨f.template ++ "." ++ name, f, nodes⟩

/-! ## One level -/

section
variable (lib : Library) (c : RenderConfig) (enter : Runner) (f : Frame)

/-- Writes an item (`write_item`): values through the renderers, templates in place. -/
def writeItem (format : Option String) (item : Item) (w : Writer) : Except Error Writer :=
  match item with
  | .value v => do
    let text ← lib.renderers.render v format c.locale
    return w.write text.toList
  | .call name args => do enter (← lib.callEntry f name args) w
  | .apply target element index => do enter (← lib.targetEntry f target element index) w

/-- The value of an item: the output of a template on a writer of its own is a text. -/
def force (item : Item) : Except Error Value :=
  match item with
  | .value v => .ok v
  | item => do
    let w ← lib.writeItem c enter f none item .empty
    return .str w.text

/-- The outcome of a primary (`eval_primary`). -/
def primary : Primary Span → Except Error Outcome
  | .path p => do return .ofValue (← lib.adaptors.resolve f.scope p)
  | .call name _ args => .ok (.one (.call name args))
  | .function function arg => do
    return (Outcome.ofValue (← lib.adaptors.argument f.scope arg)).applyFunction function

/-- The outcome of a target on every item of an outcome (`apply`). What the items were before is evaluated now, the
target itself only when it is written. -/
def applyTarget (outcome : Outcome) (target : Target Span) : Except Error Outcome :=
  match outcome with
  | .one item => do return .one (.apply target (← lib.force c enter f item) 0)
  | .many items => do
    let values ← items.mapM (lib.force c enter f)
    return .many (values.mapIdx fun index v => .apply target v index)

def layout (o : Options) : Layout where
  separator := (o.separator.getD "").toList
  width :=
    match o.wrap with
    | some (.width n) => some n
    | some .lineWidth => c.lineWidth
    | none => none

/-- Runs an expression (`exec_expr`). -/
def runExpression (p : Primary Span) (targets : List (Target Span)) (o : Options) (w : Writer) :
    Except Error Writer := do
  let start ← lib.primary f p
  let outcome ← targets.foldlM (lib.applyTarget c enter f) start
  let written ← (w.beginExpression o.anchor).writeElements (layout c o)
    (lib.writeItem c enter f o.format) true outcome.elements
  return written.endExpression

/-- Runs a region (`exec_region`). -/
def runRegion (name : String) (body : Option (List (Node Span))) (w : Writer) :
    Except Error Writer :=
  match lib.regionEntry f name body with
  | some entry => enter entry w
  | none => .ok w

def runNode (w : Writer) : Node Span → Except Error Writer
  | .literal text _ => .ok (w.write text.toList)
  | .slot name _ => lib.runRegion enter f name none w
  | .region name body _ => lib.runRegion enter f name (some body) w
  | .expression p targets o _ => lib.runExpression c enter f p targets o w

/-- Runs nodes one after the other (`exec`). -/
def runNodes (nodes : List (Node Span)) (w : Writer) : Except Error Writer :=
  nodes.foldlM (lib.runNode c enter f) w

end

/-! ## All levels -/

/-- Runs a body when so many more levels are allowed (`descend`). -/
def nested (lib : Library) (c : RenderConfig) : (levels : Nat) → Runner
  | 0, entry, _ => .error (.recursionLimit lib.maxDepth entry.label)
  | levels + 1, entry, w => lib.runNodes c (lib.nested c levels) entry.frame entry.nodes w

/-- The output of a template with the given attributes. -/
def render (lib : Library) (c : RenderConfig) (t : Compiled) (attributes : Store) : Except Error String := do
  let w ← lib.runNodes c (lib.nested c lib.maxDepth) ⟨t.name, [attributes]⟩ t.nodes .empty
  return w.text

end Library

end Stencil
