import Stencil.Format.Conversion
import Stencil.Value.Registry

/-!
# Renderers

A renderer turns a value into text, under the format option of an expression and a locale. Which renderer
does so is decided by the type of the value; a value of a type without one is written as its plain text.
-/

namespace Stencil

/-- Turns a value into text, perhaps by a format. -/
abbrev Renderer := Value → Option String → Locale → Except Error String

namespace Renderer

def formatted (format : String) (v : Value) (l : Locale) : Except Error String :=
  match Format.format format.toList v l with
  | .ok cs => .ok (String.ofList cs)
  | .error fault => .error (.unrenderable format v.typeName fault)

/-- Renders numbers (`NumberRenderer`). -/
def number : Renderer := fun v format l =>
  match v, format with
  | .int _, none | .float _, none => .ok v.text
  | .int _, some f | .float _, some f => formatted f v l
  | _, _ => .error (.unrenderable (format.getD "") v.typeName .notANumber)

def capitalize : List Char → List Char
  | [] => []
  | c :: cs => upperChar c ++ cs

/-- The form of a character in XML (`xml_encode`). -/
def xmlChar : Char → List Char
  | '<' => "&lt;".toList
  | '>' => "&gt;".toList
  | '&' => "&amp;".toList
  | '"' => "&quot;".toList
  | '\'' => "&apos;".toList
  | c => [c]

/-- Renders the text of any value; a format is the name of a change or has a specifier (`StringRenderer`). -/
def text : Renderer := fun v format l =>
  let cs := v.text.toList
  match format with
  | none => .ok v.text
  | some "upper" => .ok (String.ofList (upperText cs))
  | some "lower" => .ok (String.ofList (lowerText cs))
  | some "cap" => .ok (String.ofList (capitalize cs))
  | some "xml-encode" => .ok (String.ofList (cs.flatMap xmlChar))
  | some f =>
    if f.toList.contains '%' then formatted f v l
    else .error (.unrenderable f v.typeName .unknownTextFormat)

end Renderer

abbrev Renderers := Registry Renderer

namespace Renderers

def standard : Renderers :=
  (({} : Renderers).register .number Renderer.number).register .str Renderer.text

def render (r : Renderers) (v : Value) (format : Option String) (l : Locale) : Except Error String :=
  match r.find? v with
  | some renderer => renderer v format l
  | none => .ok v.text

end Renderers

end Stencil
