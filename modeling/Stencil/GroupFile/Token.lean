/-!
# Tokens of group files

A group file declares templates and region bodies. Bodies stand in double quotes or in one of two block
forms.
-/

namespace Stencil.GroupFile

/-- A token of a group file (`GroupToken`). -/
inductive Token where
  /-- The sign between a declaration's head and its body. -/
  | defines
  | parenOpen
  | parenClose
  | comma
  | dot
  | atSign
  | equals
  | delimiters
  | word (name : String)
  | str (s : String)
  /-- A block, without the line break after its opening and before its end. -/
  | block (s : String)
  /-- A block whose line breaks and indentation are dropped. -/
  | joinedBlock (s : String)
deriving DecidableEq, Repr

/-- What a message calls the token (`format_group_token`). -/
def Token.describe : Token → String
  | defines => "'::='"
  | parenOpen => "ParenOpen"
  | parenClose => "ParenClose"
  | comma => "Comma"
  | dot => "Dot"
  | atSign => "At"
  | equals => "Equals"
  | delimiters => "keyword 'delimiters'"
  | word name => s!"identifier '{name}'"
  | str s => s!"string \"{s}\""
  | block _ => "'<<' block"
  | joinedBlock _ => "'<%' block"

end Stencil.GroupFile
