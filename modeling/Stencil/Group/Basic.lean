import Stencil.Evaluation.Library

/-!
# Template groups

A group has named templates, bodies that replace regions of them, and the adaptors and renderers that its
templates run with. A template's source is read into its tree when it is declared; that the source is
malformed shows only when the template is used.
-/

namespace Stencil

open Template (Delimiters Parameter Compiled Node)

structure GroupConfig where
  delimiters : Delimiters := {}
  /-- How deep templates may be nested. -/
  maxDepth : Nat := 64
  /-- The extension of files that hold one template. -/
  extension : String := "st"
  /-- Whether a load fails where a declared template is malformed. -/
  eager : Bool := false
deriving DecidableEq, Repr

/-- The configuration with another extension, whose leading periods do not count. -/
def GroupConfig.withExtension (c : GroupConfig) (extension : String) : GroupConfig :=
  { c with extension := String.ofList (extension.toList.dropWhile (· == '.')) }

/-- A declared template (`TemplateEntry`). -/
structure Definition where
  params : List Parameter
  body : String
  delimiters : Delimiters
  tree : Except SyntaxError (List (Node Span)) := Template.parse delimiters body.toList
  tree_eq : tree = Template.parse delimiters body.toList := by rfl

/-- Named templates and what they run with (`TemplateGroup`). -/
structure Group where
  config : GroupConfig := {}
  templates : List (String × Definition) := []
  /-- The bodies that replace regions, by template and region. -/
  overrides : List ((String × String) × Compiled) := []
  adaptors : Adaptors := Adaptors.standard
  renderers : Renderers := {}

/-- The template of a name that a declaration gives. -/
def Definition.compile (d : Definition) (name : String) : Except Error Compiled :=
  match d.tree with
  | .ok nodes =>
    .ok { name, params := some d.params, nodes, delimiters := d.delimiters, source := d.body }
  | .error e => .error (.malformed name e)

/-- A declaration gives what its source gives. -/
theorem Definition.compile_eq (d : Definition) (name : String) :
    d.compile name = Template.compile name d.body (some d.params) d.delimiters := by
  obtain ⟨params, body, delimiters, tree, tree_eq⟩ := d
  subst tree_eq
  rfl

namespace Group

def contains (g : Group) (name : String) : Bool :=
  Dictionary.contains name g.templates

/-- The names of the declared templates, sorted (`template_names`). -/
def names (g : Group) : List String :=
  (g.templates.map (·.1)).mergeSort fun a b => !decide (b < a)

/-- The template of a name, ready to run. -/
def compiled (g : Group) (name : String) : Except Error Compiled :=
  match g.templates.lookup name with
  | some d => d.compile name
  | none => .error (.noSuchTemplate name)

/-- The body that replaces a region of a template (`region_override`). -/
def override? (g : Group) (template region : String) : Option Compiled :=
  g.overrides.lookup (template, region)

/-- What the group's templates look up when they run. -/
def library (g : Group) : Library where
  compiled := g.compiled
  override? := g.override?
  adaptors := g.adaptors
  renderers := g.renderers
  maxDepth := g.config.maxDepth

/-- The name of templates made from source text alone. -/
def anonymousName : String := "anonymous"

/-- The template of a source text, under the group's delimiters. -/
def inline (g : Group) (source : String) : Except Error Compiled :=
  Template.compile anonymousName source none g.config.delimiters

/-- The first declared template, by name, that is malformed (`compile_all`). -/
def compileAll (g : Group) : Except Error Unit :=
  g.names.forM fun name => discard (g.compiled name)

def registerAdaptor (g : Group) (key : TypeKey) (a : Adaptor) : Group :=
  { g with adaptors := g.adaptors.register key a }

def registerRenderer (g : Group) (key : TypeKey) (r : Renderer) : Group :=
  { g with renderers := g.renderers.register key r }

end Group

end Stencil
