import Stencil.Layout.Writer

/-!
# Writing the elements of an expression

Elements are written one after the other with a separator between them. Under a width, a line is broken
before an element that would pass it, unless the element stands at the start of a line already. The
separator before a break loses the blanks at its end. An element is written on a fork first; if the line
has to be broken, it is written again on the new line.
-/

namespace Stencil

/-- How the elements of an expression are laid out. -/
structure Layout where
  separator : List Char := []
  width : Option Nat := none
deriving DecidableEq, Repr

namespace Layout

/-- What is left of the separator at the end of a broken line. -/
def lineEnd (l : Layout) : List Char :=
  trimEnd l.separator

/-- Whether the line is broken before an element, given the writer before it, the fork it was written on
and whether more elements follow: there has to be room for the separator's rest after it. -/
def breaks (l : Layout) (w child : Writer) (more : Bool) : Bool :=
  match l.width with
  | none => false
  | some width =>
    w.continuationColumn < w.nextColumn &&
      width < child.firstLineWidth + if more then l.lineEnd.length else 0

end Layout

namespace Writer

variable {α ε : Type}

/-- Writes elements, each by `render` (`write_elements`). `first` tells that none was written before them. -/
def writeElements (l : Layout) (render : α → Writer → Except ε Writer) (first : Bool) :
    List α → Writer → Except ε Writer
  | [], w => .ok w
  | x :: xs, w => do
    let child ← render x (if first then w.fork else w.fork.write l.separator)
    if l.breaks w child !xs.isEmpty then
      let w := (if first then w else w.write l.lineEnd).newline
      let child ← render x w.fork
      writeElements l render false xs (w.absorb child)
    else writeElements l render false xs (w.absorb child)

end Writer

end Stencil
