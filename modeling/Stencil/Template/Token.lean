import Stencil.Text.Quoted
import Stencil.Text.Span

/-!
# Tokens of template text

A template is literal text and expressions between two delimiter characters. Literal text is one token;
inside an expression stand words, literals and punctuation.
-/

namespace Stencil.Template

/-- The characters that open and close an expression. -/
structure Delimiters where
  start : Char := '<'
  stop : Char := '>'
deriving DecidableEq, Repr

instance : Inhabited Delimiters := ⟨{}⟩

/-- A token of template text. -/
inductive Token where
  | text (s : String)
  | startDelimiter
  | stopDelimiter
  /-- A name, or a percent sign with a number. -/
  | word (name : String)
  | str (s : String)
  /-- An integer below `wordLimit`. -/
  | int (n : Nat)
  | dot
  | colon
  | semicolon
  | comma
  | equals
  | pipe
  | atSign
  | parenOpen
  | parenClose
  | braceOpen
  | braceClose
deriving DecidableEq, Repr

/-- What a message calls the token (`format_token`). -/
def Token.describe : Token → String
  | text s => "text " ++ quoted s
  | startDelimiter => "start of expression"
  | stopDelimiter => "end of expression"
  | word name => s!"identifier '{name}'"
  | str s => s!"string \"{s}\""
  | int n => s!"integer {n}"
  | dot => "'.'"
  | colon => "':'"
  | semicolon => "';'"
  | comma => "','"
  | equals => "'='"
  | pipe => "'|'"
  | atSign => "'@'"
  | parenOpen => "'('"
  | parenClose => "')'"
  | braceOpen => "'\x7b'"
  | braceClose => "'\x7d'"

end Stencil.Template
