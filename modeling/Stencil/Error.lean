import Stencil.SyntaxError

/-!
# Errors

What can go wrong while templates are loaded, attributes are bound and instances are rendered: one
constructor per cause. The wording is in the `message` functions.
-/

namespace Stencil

/-- Why an aggregate spec was refused. -/
inductive SpecFault where
  | noFields
  | badName
  | noBraces
  | badField (field : String)
  | repeatedField (field : String)
deriving DecidableEq, Repr

def SpecFault.message : SpecFault → String
  | noFields => "expected 'name.\x7bfield, ...\x7d'"
  | badName => "attribute name is not an identifier"
  | noBraces => "field list must be wrapped in braces"
  | badField field => s!"'{field}' is not a field name"
  | repeatedField field => s!"field '{field}' listed twice"

/-- Why a value could not be rendered. -/
inductive RenderFault where
  | fieldTooLarge (numeral : String) (limit : Nat)
  | precisionMissing
  | unfinishedSpecifier
  /-- A second specifier asks for a value. -/
  | secondValue
  | unknownConversion (conversion : Char)
  | integerRequired (conversion : Char) (typeName : String)
  | numberRequired (conversion : Char) (typeName : String)
  /-- A conversion of bits has a flag it cannot have. -/
  | bitFlags (conversion : Char)
  | scientificGrouping
  | textFlags (conversion : Char)
  | notANumber
  | unknownTextFormat
deriving DecidableEq, Repr

def RenderFault.message : RenderFault → String
  | fieldTooLarge numeral limit => s!"field size {numeral} is larger than {limit}"
  | precisionMissing => "precision expected after '.'"
  | unfinishedSpecifier => "format ends inside a specifier"
  | secondValue => "only one value is available to format"
  | unknownConversion conversion => s!"unknown conversion '{conversion}'"
  | integerRequired conversion typeName => s!"%{conversion} requires an integer, not {typeName}"
  | numberRequired conversion typeName => s!"%{conversion} requires a number, not {typeName}"
  | bitFlags conversion => s!"flags other than '-' and '0' are not allowed with %{conversion}"
  | scientificGrouping => "',' flag is not allowed with %e"
  | textFlags conversion => s!"numeric flags are not allowed with %{conversion}"
  | notANumber => "not a number"
  | unknownTextFormat => "unknown string format"

/-- Why a file could not be read. -/
inductive ReadFault where
  | notFound
  | isDirectory
  | insideFile
  /-- The path is longer than any path can be, or a part of it than any name. -/
  | tooLong
  | zeroCharacter
  | notUtf8
deriving DecidableEq, Repr

def ReadFault.message : ReadFault → String
  | notFound => "No such file or directory (os error 2)"
  | isDirectory => "Is a directory (os error 21)"
  | insideFile => "Not a directory (os error 20)"
  | tooLong => "File name too long (os error 36)"
  | zeroCharacter => "file name contained an unexpected NUL byte"
  | notUtf8 => "stream did not contain valid UTF-8"

/-- Why a directory or a file of it could not be loaded. -/
inductive LoadFault where
  | notADirectory
  /-- A file declares no template of its own name. -/
  | declarationMissing (stem : String)
deriving DecidableEq, Repr

def LoadFault.message : LoadFault → String
  | notADirectory => "not a directory"
  | declarationMissing stem => s!"expected a declaration of template '{stem}'"

/-- An error of the engine. -/
inductive Error where
  | malformed (template : String) (error : SyntaxError)
  | noSuchTemplate (name : String)
  | noSuchRegion (template region : String)
  | noSuchAttribute (name : String)
  | noSuchProperty (owner property : String)
  | aggregateArity (expected actual : Nat)
  | badAggregateSpec (spec : String) (fault : SpecFault)
  | unrenderable (format typeName : String) (fault : RenderFault)
  | recursionLimit (limit : Nat) (template : String)
  | unknownParameter (template name : String)
  | argumentCount (template : String) (expected actual : Nat)
  | duplicateTemplate (name : String)
  | unreadable (path : String) (fault : ReadFault)
  | unloadable (path : String) (fault : LoadFault)
deriving DecidableEq, Repr

def Error.message : Error → String
  | malformed template error =>
    s!"template '{template}' has syntax errors: syntax error at {error.span.start}: {error.message}"
  | noSuchTemplate name => s!"no such template '{name}'"
  | noSuchRegion template region => s!"template '{template}' has no region '{region}'"
  | noSuchAttribute name => s!"no such attribute '{name}'"
  | noSuchProperty owner property => s!"no such property '{property}' on {owner}"
  | aggregateArity expected actual =>
    s!"aggregate expects {expected} values but {actual} were given"
  | badAggregateSpec spec fault => s!"invalid aggregate spec '{spec}': {fault.message}"
  | unrenderable format typeName fault =>
    s!"cannot render {typeName} with format '{format}': {fault.message}"
  | recursionLimit limit template =>
    s!"template nesting exceeded {limit} levels in '{template}'"
  | unknownParameter template name => s!"template '{template}' has no parameter '{name}'"
  | argumentCount template expected actual =>
    s!"template '{template}' expects {expected} arguments but got {actual}"
  | duplicateTemplate name => s!"template '{name}' is defined more than once"
  | unreadable path fault => s!"failed to read '{path}': {fault.message}"
  | unloadable path fault => s!"cannot load '{path}': {fault.message}"

end Stencil
