import Stencil.GroupFile.Token
import Stencil.Template.Token

/-!
# Malformed sources

Why a template or a group file was refused, and where. The wording of every cause is in
`SyntaxFault.message`.
-/

namespace Stencil

/-- The options an expression may have. -/
inductive OptionKey where
  | format
  | wrap
  | anchor
  | separator
deriving DecidableEq, Repr

def OptionKey.name : OptionKey → String
  | format => "format"
  | wrap => "wrap"
  | anchor => "anchor"
  | separator => "separator"

/-- Why a source was refused. -/
inductive SyntaxFault where
  | unterminatedComment
  /-- An escape tag holds something other than escapes, or nothing. -/
  | malformedEscape
  | invalidCodePoint
  | unknownEscape
  | unterminatedExpression (stop : Char)
  | unterminatedBraces
  | unexpectedCharacter (c : Char)
  | unexpectedToken (token : Template.Token)
  | unexpectedGroupToken (token : GroupFile.Token)
  | unexpectedEnd
  | stringExpected (key : OptionKey)
  | widthExpected
  | valueNotAllowed
  | unknownOption (name : String)
  | repeatedOption (key : OptionKey)
  /-- An anonymous template has more than two parameters. -/
  | tooManyParameters
  | unterminatedBlock
  | unterminatedJoinedBlock
  | unterminatedString
  | unexpectedInput (piece : String)
  | delimiterLength
  | repeatedParameter (parameter template : String)
deriving DecidableEq, Repr

def SyntaxFault.message : SyntaxFault → String
  | unterminatedComment => "unterminated comment"
  | malformedEscape => "malformed escape sequence"
  | invalidCodePoint => "invalid unicode escape"
  | unknownEscape => "unknown escape sequence"
  | unterminatedExpression stop => s!"unterminated expression; expected '{stop}'"
  | unterminatedBraces => "unterminated anonymous template; expected '\x7d'"
  | unexpectedCharacter c => s!"unexpected character '{c}' in expression"
  | unexpectedToken token => "unexpected " ++ token.describe
  | unexpectedGroupToken token => "unexpected " ++ token.describe
  | unexpectedEnd => "unexpected end of input"
  | stringExpected key => s!"option '{key.name}' expects a string value"
  | widthExpected => "option 'wrap' expects a positive width"
  | valueNotAllowed => "option 'anchor' takes no value"
  | unknownOption name =>
    s!"unknown option '{name}'; expected one of: format, wrap, anchor, separator"
  | repeatedOption key => s!"option '{key.name}' given more than once"
  | tooManyParameters => "anonymous templates take at most two parameters (element and index)"
  | unterminatedBlock => "unterminated '<<' block; expected '>>'"
  | unterminatedJoinedBlock => "unterminated '<%' block; expected '%>'"
  | unterminatedString => "unterminated string"
  | unexpectedInput piece => s!"unexpected input '{piece}'"
  | delimiterLength => "delimiters must be single characters"
  | repeatedParameter parameter template =>
    s!"parameter '{parameter}' declared twice in '{template}'"

/-- A fault and the place it was found at. -/
structure SyntaxError where
  span : Span
  fault : SyntaxFault
deriving DecidableEq, Repr

/-- The error that the next token, or else the end of the source, fits nowhere. A token is reported by `report`, the
end of the source at `eof`. -/
def SyntaxError.unexpected {τ : Type} (report : τ → SyntaxFault) (eof : Span) : List (Located τ) → SyntaxError
  | [] => ⟨eof, .unexpectedEnd⟩
  | t :: _ => ⟨t.span, report t.token⟩

def SyntaxError.message (e : SyntaxError) : String :=
  e.fault.message

/-- The line and the column where the error starts, both counted from one (`line_col`). -/
def SyntaxError.lineColumn (e : SyntaxError) (source : String) : Nat × Nat :=
  Stencil.lineColumn source.toList e.span.start

end Stencil
