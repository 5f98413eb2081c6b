import Stencil.Proofs.Layout.Balanced

/-!
# The current line of a writer

Everything a writer writes between two newlines goes on its current line. The first character of a pending
line comes after the indentation (`lead`), so that every character but a newline is written by one append
(`writeChar_eq`).
-/

namespace Stencil.Writer

@[simp] theorem toList_buffer_append (w : Writer) (cs : List Char) :
    (w.append cs).buffer.toList = w.buffer.toList ++ cs := by
  simp [append]

theorem toList_line (w : Writer) : w.line.toList = w.buffer.toList.drop w.lineStart := by
  rw [line, Array.toList_extract]
  exact List.take_of_length_le (by simp)

theorem toList_line_append {w : Writer} (hw : w.Valid) (cs : List Char) :
    (w.append cs).line.toList = w.line.toList ++ cs := by
  rw [toList_line, toList_line, toList_buffer_append]
  exact List.drop_append_of_le_length hw

theorem append_append (w : Writer) (cs ds : List Char) : (w.append cs).append ds = w.append (cs ++ ds) := by
  have : w.buffer ++ cs ++ ds = w.buffer ++ (cs ++ ds) := Array.ext' (by simp)
  simp [append, this, Nat.add_assoc]

@[simp] theorem line_newline (w : Writer) : w.newline.line = #[] := by
  simp [line, newline]

/-- What stands before the next character if it is not a newline: the indentation of a pending line. -/
def lead (w : Writer) : List Char :=
  if w.pendingIndent then w.indent ++ List.replicate (w.anchor - (w.column + w.indent.length)) ' ' else []

/-- Writes text without a newline on a line that need not be indented any more. -/
def resume (w : Writer) (cs : List Char) : Writer :=
  { w with pendingIndent := false }.append cs

theorem writeChar_eq (w : Writer) {c : Char} (hc : c ≠ '\n') : w.writeChar c = w.resume (w.lead ++ [c]) := by
  rw [writeChar, if_neg (by simpa using hc), resume, lead]
  cases hp : w.pendingIndent with
  | true =>
    simp only [if_true, writeIndent, append_append]
    rfl
  | false =>
    have : { w with pendingIndent := false } = w := by rw [← hp]
    simp [this]

/-- Text without a newline on a line that is not pending is appended as it is. -/
theorem write_eq_append {w : Writer} (hw : w.pendingIndent = false) {cs : List Char} (hcs : '\n' ∉ cs) :
    w.write cs = w.append cs := by
  induction cs generalizing w with
  | nil => simp [write, append]
  | cons c cs ih =>
    rw [List.mem_cons, not_or] at hcs
    have hc : w.writeChar c = w.append [c] := by
      simp [writeChar, Ne.symm hcs.1, hw]
    rw [write, List.foldl_cons, hc]
    exact (ih (w := w.append [c]) hw hcs.2).trans (append_append ..)

/-- Text without a newline goes on the current line as a whole. -/
theorem write_eq_resume (w : Writer) {cs : List Char} (hne : cs ≠ []) (hcs : '\n' ∉ cs) :
    w.write cs = w.resume (w.lead ++ cs) := by
  cases cs with
  | nil => exact absurd rfl hne
  | cons c cs =>
    rw [List.mem_cons, not_or] at hcs
    have hrest : (w.resume (w.lead ++ [c])).write cs = (w.resume (w.lead ++ [c])).append cs :=
      write_eq_append rfl hcs.2
    rw [write, List.foldl_cons, writeChar_eq w (Ne.symm hcs.1)]
    exact hrest.trans (by rw [resume, append_append, List.append_assoc]; rfl)

@[simp] theorem toList_buffer_resume (w : Writer) (cs : List Char) :
    (w.resume cs).buffer.toList = w.buffer.toList ++ cs :=
  toList_buffer_append ..

theorem toList_line_resume {w : Writer} (hw : w.Valid) (cs : List Char) :
    (w.resume cs).line.toList = w.line.toList ++ cs :=
  toList_line_append (w := { w with pendingIndent := false }) hw cs

theorem lead_resume (w : Writer) (cs : List Char) : (w.resume cs).lead = [] :=
  rfl

/-- The lines above the current one. -/
def above (w : Writer) : List Char :=
  w.buffer.toList.take w.lineStart

theorem above_append_line (w : Writer) : w.above ++ w.line.toList = w.buffer.toList := by
  rw [above, toList_line, List.take_append_drop]

theorem above_resume {w : Writer} (hw : w.Valid) (cs : List Char) : (w.resume cs).above = w.above := by
  rw [above, toList_buffer_resume]
  exact List.take_append_of_le_length hw

theorem above_newline (w : Writer) : w.newline.above = w.buffer.toList ++ ['\n'] := by
  rw [above, newline]
  simp only [Array.toList_push]
  exact List.take_of_length_le (by simp)

theorem valid_resume {w : Writer} (hw : w.Valid) (cs : List Char) : (w.resume cs).Valid :=
  (extends_append { w with pendingIndent := false } cs).valid hw

end Stencil.Writer
