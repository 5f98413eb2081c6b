import Stencil.Proofs.Layout.Columns
import Stencil.Proofs.Text.Position

/-!
# The bookkeeping of a writer

A writer could look up in its buffer where its current line starts and how long it is, but it keeps both in fields of
their own, and while operations go on, forks move these from one buffer to another. `Bookkept` says that the fields are
right: they agree with the buffer, and the two stacks with each other and with the column. A fork began with a line of
another writer, which no operation on it changes, so the writers that can come up are told apart by that line
(`ReachableOn`); apart from it they are the reachable ones (`reachable_iff`).

Offsets count characters. In bytes they are what they should be as well (`Bookkept.byteOffset`), and the operations
move them in the same way (`byteOffset_moved`). Main statement: `ReachableOn.bookkept`.
-/

namespace Stencil.Writer

/-! ## Writers and the lines they began with -/

/-- A writer that some sequence of operations leads to, and the line it began with: that of the writer it was forked
from, or nothing. Text is written, expressions are begun and ended in any order, elements are written, and a fork is
taken for a balanced program and absorbed by the writer it was taken from. What a fork goes through on the way is
reachable too. -/
inductive ReachableOn : List Char → Writer → Prop where
  | empty : ReachableOn [] .empty
  | write {line : List Char} {w : Writer} (cs : List Char) : ReachableOn line w → ReachableOn line (w.write cs)
  | beginExpression {line : List Char} {w : Writer} (anchored : Bool) :
    ReachableOn line w → ReachableOn line (w.beginExpression anchored)
  | endExpression {line : List Char} {w : Writer} : ReachableOn line w → ReachableOn line w.endExpression
  | elements {ε α : Type} (l : Layout) {render : α → Writer → Except ε Writer} {xs : List α} {line : List Char}
    {w w' : Writer} : ReachableOn line w → (∀ x ∈ xs, Balanced (render x)) →
    writeElements l render true xs w = .ok w' → ReachableOn line w'
  | fork {line : List Char} {w : Writer} : ReachableOn line w → ReachableOn w.line.toList w.fork
  | absorb {ε : Type} {f : Writer → Except ε Writer} {line : List Char} {w child : Writer} :
    ReachableOn line w → Balanced f → f w.fork = .ok child → ReachableOn line (w.absorb child)

/-- The writers that begin with some line are all that can come up. -/
theorem reachable_iff {w : Writer} : w.Reachable ↔ ∃ line, w.ReachableOn line := by
  constructor
  · intro h
    induction h with
    | empty => exact ⟨_, .empty⟩
    | write cs _ ih => exact ih.imp fun _ h => .write cs h
    | beginExpression anchored _ ih => exact ih.imp fun _ h => .beginExpression anchored h
    | endExpression _ ih => exact ih.imp fun _ h => .endExpression h
    | elements l _ hr hw ih => exact ih.imp fun _ h => .elements l h hr hw
    | fork _ ih =>
      obtain ⟨_, h⟩ := ih
      exact ⟨_, .fork h⟩
    | absorb _ hf hc ih => exact ih.imp fun _ h => .absorb h hf hc
  · rintro ⟨line, h⟩
    induction h with
    | empty => exact .empty
    | write cs _ ih => exact .write cs ih
    | beginExpression anchored _ ih => exact .beginExpression anchored ih
    | endExpression _ ih => exact .endExpression ih
    | elements l _ hr hw ih => exact .elements l ih hr hw
    | fork _ ih => exact .fork ih
    | absorb _ hf hc ih => exact .absorb ih hf hc

/-- The buffer begins with the line, and that is all that the base takes of it. -/
def BeginsWith (line : List Char) (w : Writer) : Prop :=
  line <+: w.buffer.toList ∧ w.base = line.length

theorem Extends.beginsWith {line : List Char} {w w' : Writer} (h : w.Extends w') (hw : w.BeginsWith line) :
    w'.BeginsWith line := by
  obtain ⟨added, hadded⟩ := h.text
  refine ⟨?_, h.base.trans hw.2⟩
  rw [hadded, Array.toList_append]
  exact hw.1.trans (List.prefix_append _ _)

/-- The line that a writer began with stays at the beginning of its buffer. -/
theorem ReachableOn.beginsWith {line : List Char} {w : Writer} (h : w.ReachableOn line) : w.BeginsWith line := by
  induction h with
  | empty => exact ⟨List.nil_prefix, rfl⟩
  | write cs _ ih => exact (extends_write _ cs).beginsWith ih
  | beginExpression _ _ ih => exact ih
  | endExpression _ ih => exact ih
  | elements l _ hr hw ih => exact ((Balanced.elements l hr).extends hw).beginsWith ih
  | fork _ _ => exact ⟨List.prefix_rfl, Array.length_toList.symm⟩
  | absorb _ hf hc ih => exact (extends_absorb _ (hf.extends hc)).beginsWith ih

/-! ## Whole lines above the current one -/

/-- Above the current line there are whole lines. -/
structure Headed (w : Writer) : Prop extends Tidy w where
  above : w.above = [] ∨ w.above.getLast? = some '\n'

namespace Headed

variable {w : Writer} (hw : w.Headed)
include hw

theorem writeChar (c : Char) : (w.writeChar c).Headed := by
  refine ⟨(w.extends_writeChar c).tidy hw.toTidy, ?_⟩
  by_cases hc : c = '\n'
  · subst hc
    have hnewline : (w.writeChar '\n').above = w.buffer.toList ++ ['\n'] := w.above_newline
    rw [hnewline]
    exact .inr List.getLast?_concat
  · rw [writeChar_eq w hc, above_resume hw.valid]
    exact hw.above

theorem write (cs : List Char) : (w.write cs).Headed := by
  induction cs generalizing w with
  | nil => exact hw
  | cons c cs ih => exact ih (hw.writeChar c)

end Headed

theorem kept_headed : Kept Headed where
  valid hw := hw.valid
  write hw cs := hw.write cs
  beginExpression hw anchored := ⟨hw.toTidy.beginExpression anchored, hw.above⟩
  endExpression hw := ⟨hw.toTidy.endExpression, hw.above⟩

theorem Reachable.headed {w : Writer} (h : w.Reachable) : w.Headed :=
  h.keeps kept_headed ⟨tidy_empty, .inl rfl⟩ fun {w} hw => ⟨⟨w.valid_fork, hw.blank⟩, .inl rfl⟩

/-! ## The fields of a writer -/

/-- The fields of a writer that began with the line are right. -/
structure Bookkept (line : List Char) (w : Writer) : Prop where
  lineStart : w.lineStart = (w.buffer.toList.rdropWhile (· ≠ '\n')).length
  column : w.column = (w.buffer.toList.rtakeWhile (· ≠ '\n')).length
  /-- A line that is still to be indented is empty. -/
  pending : w.pendingIndent = true → w.buffer.toList.rtakeWhile (· ≠ '\n') = []
  paired : w.indents.length = w.anchors.length
  blank : ∀ indent ∈ w.indents, ∀ c ∈ indent, c = ' ' ∨ c = '\t'
  indents : w.indents.Pairwise fun inner outer => outer.length ≤ inner.length
  anchors : w.anchors.Pairwise fun inner outer => outer ≤ inner
  /-- The base is the length of the line that a fork began with, which is still there. -/
  base : w.base = line.length ∧ w.buffer.toList.take w.base = line
  /-- The text of an indented line is not to the left of where a further line would continue. -/
  inside : w.pendingIndent = false → w.continuationColumn ≤ w.column

/-! ## Offsets in bytes -/

/-- The number of bytes in front of a character of the buffer. -/
def byteOffset (w : Writer) (offset : Nat) : Nat :=
  byteLength (w.buffer.toList.take offset)

/-- In bytes the current line starts behind the last newline, and the base is the size of the line that a fork began
with. -/
theorem Bookkept.byteOffset {line : List Char} {w : Writer} (h : w.Bookkept line) :
    w.byteOffset w.lineStart = byteLength (w.buffer.toList.rdropWhile (· ≠ '\n')) ∧
    w.byteOffset w.base = byteLength line := by
  have hwhole : w.buffer.toList.take w.lineStart = w.buffer.toList.rdropWhile (· ≠ '\n') := by
    rw [h.lineStart]
    exact (List.prefix_iff_eq_take.1 (List.rdropWhile_prefix _ _)).symm
  exact ⟨congrArg byteLength hwhole, congrArg byteLength h.base.2⟩

/-- The operations that move the two offsets move them in bytes as they do in characters: a newline puts the start of
the line behind the whole buffer, a fork has the line as its base, and what a fork adds to its start is added when it
is absorbed. -/
theorem byteOffset_moved {w : Writer} (hw : w.Valid) :
    w.newline.byteOffset w.newline.lineStart = byteLength w.newline.buffer.toList ∧
    w.fork.byteOffset w.fork.base = byteLength w.fork.buffer.toList ∧
    ∀ child, w.fork.Extends child → (w.absorb child).byteOffset (w.absorb child).lineStart =
      w.byteOffset w.lineStart + child.byteOffset child.lineStart := by
  refine ⟨?_, ?_, fun child h => ?_⟩
  · exact congrArg byteLength (List.take_of_length_le (by simp [newline]))
  · exact congrArg byteLength (List.take_of_length_le (by simp [fork]))
  · have hsize : (w.buffer.extract 0 w.lineStart).toList = w.buffer.toList.take w.lineStart := by simp
    have hlength : (w.buffer.toList.take w.lineStart).length = w.lineStart := List.length_take_of_le hw
    have hbuffer : (w.absorb child).buffer.toList = w.buffer.toList.take w.lineStart ++ child.buffer.toList := by
      rw [absorb_eq_after hw h, after, Array.toList_append, hsize]
    have hstart : (w.absorb child).lineStart = (w.buffer.toList.take w.lineStart).length + child.lineStart := by
      rw [hlength, absorb]
    rw [Writer.byteOffset, hbuffer, hstart, List.take_length_add_append, byteLength_append]
    rfl

/-! ## Main statement -/

/-- **The fields of every reachable writer are right.** Whatever operations lead to a writer, on a fork or not: the
start of its line and its column are those of its buffer, a line to be indented is empty, there are as many
indentations as anchors, both grow inwards, indentations are spaces and tabs, the buffer of a fork still begins with
the line it was forked from, and an indented line reaches to where its continuation would start. -/
theorem ReachableOn.bookkept {line : List Char} {w : Writer} (h : w.ReachableOn line) : w.Bookkept line := by
  have hreachable : w.Reachable := reachable_iff.2 ⟨line, h⟩
  have haligned := hreachable.aligned
  have hheaded := hreachable.headed.above
  have hlast : w.buffer.toList.rtakeWhile (· ≠ '\n') = w.line.toList := by
    rw [← above_append_line, rtakeWhile_append hheaded haligned.line]
  have hwhole : w.buffer.toList.rdropWhile (· ≠ '\n') = w.above := by
    rw [← above_append_line, rdropWhile_append hheaded haligned.line]
  have hcolumn : w.column = (w.buffer.toList.rtakeWhile (· ≠ '\n')).length := by
    rw [hlast, Array.length_toList, haligned.column]
  obtain ⟨hline, hbase⟩ := h.beginsWith
  exact {
    lineStart := by
      rw [hwhole, above, List.length_take_of_le]
      exact haligned.valid
    column := hcolumn
    pending := fun hp => List.eq_nil_of_length_eq_zero (hcolumn.symm.trans (haligned.pending hp))
    paired := haligned.paired
    blank := fun indent hmem c hc => by simpa [isInlineBlank] using haligned.blank indent hmem c hc
    indents := haligned.indents
    anchors := haligned.anchors
    base := ⟨hbase, by rw [hbase]; exact (List.prefix_iff_eq_take.1 hline).symm⟩
    inside := fun hp => by
      have hnext := haligned.continuationColumn_le
      rwa [nextColumn, hp, if_neg Bool.false_ne_true] at hnext }

/-- A fork of an indented line: an anchored expression on it has written four numbers, broken after the second. -/
theorem bookkept_anchored :
    let line := [' ', ' ', 'x', ' ', '=', ' ']
    let w := (empty.write line).beginExpression false
    let render : List Char → Writer → Except Unit Writer := fun cs w => .ok (w.write cs)
    ∃ child, writeElements { separator := [' '], width := some 12 } render true
        [['7'], ['1', '4'], ['2', '1'], ['2', '8']] (w.fork.beginExpression true) = .ok child ∧
      child.ReachableOn line ∧ child.Bookkept line ∧ child.text = "  x = 7 14\n      21 28" ∧
      child.lineStart = 11 ∧ child.column = 11 ∧ child.anchors = [6, 0] ∧ child.base = 6 := by
  intro line w render
  have hw : w.ReachableOn [] := .beginExpression false (.write line .empty)
  have hfork : (w.fork.beginExpression true).ReachableOn line := .beginExpression true (.fork hw)
  have hfields : (writeElements { separator := [' '], width := some 12 } render true
      [['7'], ['1', '4'], ['2', '1'], ['2', '8']] (w.fork.beginExpression true)).map
        (fun v => (v.text, v.lineStart, v.column, v.anchors, v.base)) =
      .ok ("  x = 7 14\n      21 28", 11, 11, [6, 0], 6) := by
    decide
  obtain ⟨child, hchild, hvalues⟩ := map_eq_ok.1 hfields
  have hreachable : child.ReachableOn line := .elements _ hfork (fun cs _ => .write cs) hchild
  refine ⟨child, hchild, hreachable, hreachable.bookkept, ?_⟩
  simpa only [Prod.mk.injEq] using hvalues

end Stencil.Writer
