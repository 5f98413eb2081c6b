import Stencil.Text.Case
import Stencil.Text.VisibleTable
import Stencil.Text.Word

/-!
# Quoting a text for a message

A quoted text stands in double quotes. Quotes and backslashes get a backslash, the usual control
characters their letters, and a character that would not show by itself is written by its code point in
braces.
-/

namespace Stencil

/-- The letters that stand for an absent letter of a Hangul syllable. They take up no ink. -/
def isHangulFiller (c : Char) : Bool :=
  c == '\u115f' || c == '\u1160' || c == '\u3164' || c == '\uffa0'

/-- The halfwidth sound marks. They extend the letter before them, but have a cell of their own. -/
def isHalfwidthSoundMark (c : Char) : Bool :=
  c == '\uff9e' || c == '\uff9f'

/-- Whether the character shows by itself in a quoted text. -/
def isVisible (c : Char) : Bool :=
  !CaseTable.inRanges VisibleTable.hiddenRanges c.toNat && !isHangulFiller c &&
    (isHalfwidthSoundMark c || !CaseTable.inRanges VisibleTable.graphemeExtendRanges c.toNat)

def quotedChar (c : Char) : List Char :=
  if c == '\x00' then ['\\', '0']
  else if c == '\t' then ['\\', 't']
  else if c == '\r' then ['\\', 'r']
  else if c == '\n' then ['\\', 'n']
  else if c == '"' || c == '\\' then ['\\', c]
  else if isVisible c then [c]
  else ['\\', 'u', '\x7b'] ++ numeral 16 c.toNat ++ ['\x7d']

def quoted (s : String) : String :=
  String.ofList ('"' :: s.toList.flatMap quotedChar ++ ['"'])

end Stencil
