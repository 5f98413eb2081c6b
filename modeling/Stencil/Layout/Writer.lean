import Stencil.Text.Blank

/-!
# Output with columns

A writer holds the text written so far and knows the column of its end. While an expression is being
written, every further line begins with the indentation of the line on which the expression started, and
an anchored expression continues at the column where it started. A fork is a writer that continues on the
current line of another; `absorb` appends what it wrote.
-/

namespace Stencil

/-- Output that is being written (`OutputWriter`). Offsets count characters. -/
structure Writer where
  buffer : Array Char := #[]
  /-- The number of characters on the current line. -/
  column : Nat := 0
  /-- The offset at which the current line starts. -/
  lineStart : Nat := 0
  /-- Whether the current line is still to be indented before its first character. -/
  pendingIndent : Bool := false
  /-- The indentation of the lines of each open expression, innermost first. -/
  indents : List (List Char) := []
  /-- The column at which the lines of each open expression start at least, innermost first. -/
  anchors : List Nat := []
  /-- The length of the line that a fork began with. -/
  base : Nat := 0
deriving DecidableEq, Repr

namespace Writer

def empty : Writer := {}

def text (w : Writer) : String :=
  String.ofList w.buffer.toList

def line (w : Writer) : Array Char :=
  w.buffer.extract w.lineStart w.buffer.size

/-- The indentation that the innermost open expression gives its lines. -/
def indent (w : Writer) : List Char :=
  w.indents.headD []

/-- The least column at which the innermost open expression starts its lines. -/
def anchor (w : Writer) : Nat :=
  w.anchors.headD 0

/-- The column at which a further line of the innermost open expression starts (`continuation_column`). -/
def continuationColumn (w : Writer) : Nat :=
  max w.indent.length w.anchor

/-- The column on which the next character will stand (`effective_column`). -/
def nextColumn (w : Writer) : Nat :=
  if w.pendingIndent then w.continuationColumn else w.column

def append (w : Writer) (cs : List Char) : Writer :=
  { w with buffer := w.buffer ++ cs, column := w.column + cs.length }

def newline (w : Writer) : Writer :=
  { w with
    buffer := w.buffer.push '\n'
    column := 0
    lineStart := w.buffer.size + 1
    pendingIndent := !w.indents.isEmpty }

/-- Indents the current line (`write_indent`): the indentation first, then spaces up to the anchor. -/
def writeIndent (w : Writer) : Writer :=
  let w := { w with pendingIndent := false }.append w.indent
  w.append (List.replicate (w.anchor - w.column) ' ')

/-- Writes a character. A line is indented when its first character is written. -/
def writeChar (w : Writer) (c : Char) : Writer :=
  if c == '\n' then w.newline
  else (if w.pendingIndent then w.writeIndent else w).append [c]

def write (w : Writer) (cs : List Char) : Writer :=
  cs.foldl writeChar w

/-- Opens an expression (`begin_expression`). If nothing but spaces and tabs stands before it on its line, they are
the indentation of its further lines; otherwise these are indented like those of the expression around it. -/
def beginExpression (w : Writer) (anchored : Bool) : Writer :=
  let before := w.line.toList
  let indent := if !w.pendingIndent && before.all isInlineBlank then before else w.indent
  let anchor := if anchored then max w.nextColumn w.anchor else w.anchor
  { w with indents := indent :: w.indents, anchors := anchor :: w.anchors }

def endExpression (w : Writer) : Writer :=
  { w with indents := w.indents.tail, anchors := w.anchors.tail }

/-- A writer that continues on the current line. -/
def fork (w : Writer) : Writer :=
  { w with buffer := w.line, lineStart := 0, base := w.line.size }

/-- Appends what a fork has written. -/
def absorb (w child : Writer) : Writer :=
  { w with
    buffer := w.buffer ++ child.buffer.extract child.base child.buffer.size
    lineStart := w.lineStart + child.lineStart
    column := child.column
    pendingIndent := child.pendingIndent }

/-- The number of characters on the first line, for a fork the line it continues (`first_line_width`). -/
def firstLineWidth (w : Writer) : Nat :=
  (w.buffer.toList.takeWhile (· ≠ '\n')).length

end Writer

end Stencil
