import Stencil.Evaluation.Run
import Stencil.Group.Basic

/-!
# Template instances

An instance is a template with attributes of its own. Only the attributes that its template accepts can be
bound. Rendering changes nothing, so an instance can be rendered again.
-/

namespace Stencil

open Template (Compiled Delimiters)

/-- The output of a template with the given attributes, run in a group. -/
def Group.render (g : Group) (c : RenderConfig) (t : Compiled) (attributes : Store) :
    Except Error String :=
  g.library.render c t attributes

/-- A template with attributes (`Template`). -/
structure Instance where
  template : Compiled
  attributes : Store := .empty
  /-- Whether the template belongs to no group. -/
  standalone : Bool := false

namespace Instance

/-- An instance of a template of a group (`instance_of`). -/
def ofName (g : Group) (name : String) : Except Error Instance := do
  return { template := ← g.compiled name }

/-- An instance of a source text that may use the templates of a group. -/
def inline (g : Group) (source : String) : Except Error Instance := do
  return { template := ← g.inline source }

/-- An instance of a source text that belongs to no group. -/
def ofSource (source : String) (delimiters : Delimiters) : Except Error Instance := do
  let template ← Template.compile Group.anonymousName source none delimiters
  return { template, standalone := true }

/-- Only attributes that the template accepts are bound (`check_parameter`). -/
def check (i : Instance) (name : String) : Except Error Unit :=
  if i.template.accepts name then .ok () else .error (.unknownParameter i.template.name name)

def add (i : Instance) (name : String) (v : Value) : Except Error Instance := do
  i.check name
  return { i with attributes := i.attributes.add name v }

def set (i : Instance) (name : String) (v : Value) : Except Error Instance := do
  i.check name
  return { i with attributes := i.attributes.set name v }

def addAggregate (i : Instance) (spec : String) (values : List Value) : Except Error Instance :=
  match AggregateSpec.parse spec.toList with
  | .error fault => .error (.badAggregateSpec spec fault)
  | .ok parsed => do
    i.check parsed.name
    let (result, attributes) := (Store.addAggregate spec values).run.run i.attributes
    result
    return { i with attributes }

def remove (i : Instance) (name : String) : Instance :=
  { i with attributes := i.attributes.remove name }

/-- The output of an instance (`render_with`). A template that belongs to no group runs in an empty one. -/
def render (i : Instance) (g : Group) (c : RenderConfig) : Except Error String :=
  (if i.standalone then ({} : Group) else g).render c i.template i.attributes

end Instance

/-- The output of a template text at a width; the values are bound to `%1`, `%2` and so on. -/
def format (width : Nat) (template : String) (values : List Value) : Except Error String := do
  let i ← Instance.ofSource template {}
  let named := values.mapIdx fun index v => (s!"%{index + 1}", v)
  let i ← named.foldlM (fun i (name, v) => i.set name v) i
  i.render {} { lineWidth := some width }

end Stencil
