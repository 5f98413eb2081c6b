import Stencil.Proofs.Layout.Balanced

/-!
# Writing on a fork

A fork knows only the current line of its writer, and its offsets are its own. No operation looks further
back than the current line, so the text before it can be put in front of a writer before a program runs or
after it has run (`Balanced.after`): the two writers differ by a shift of their offsets throughout. A writer
is its own fork after the lines above, and that is what `absorb` makes of the fork again. Main statement:
running a program on a fork and absorbing it is running it in place (`absorb_run_fork`).
-/

namespace Stencil.Writer

variable {ε : Type}

/-- The writer with a text in front of its own, and with a base that may differ. -/
def after (text : Array Char) (base : Nat) (w : Writer) : Writer :=
  { w with buffer := text ++ w.buffer, lineStart := text.size + w.lineStart, base := base }

section
variable (text : Array Char) (base : Nat) (w : Writer)

@[simp] theorem line_after : (w.after text base).line = w.line := by
  simp [line, after]

@[simp] theorem fork_after : (w.after text base).fork = w.fork := by
  rw [fork, fork, line_after]
  rfl

@[simp] theorem append_after (cs : List Char) :
    (w.after text base).append cs = (w.append cs).after text base := by
  have : text ++ w.buffer ++ cs = text ++ (w.buffer ++ cs) := Array.ext' (by simp)
  simp [append, after, this]

@[simp] theorem newline_after : (w.after text base).newline = w.newline.after text base := by
  simp [newline, after, Nat.add_assoc]

@[simp] theorem writeIndent_after : (w.after text base).writeIndent = w.writeIndent.after text base := by
  have h : { w.after text base with pendingIndent := false } =
      { w with pendingIndent := false }.after text base := rfl
  simp only [writeIndent, h, append_after]
  rfl

@[simp] theorem writeChar_after (c : Char) :
    (w.after text base).writeChar c = (w.writeChar c).after text base := by
  unfold writeChar
  split
  · exact newline_after ..
  · rw [show (w.after text base).pendingIndent = w.pendingIndent from rfl]
    split
    · rw [writeIndent_after, append_after]
    · exact append_after ..

@[simp] theorem write_after (cs : List Char) :
    (w.after text base).write cs = (w.write cs).after text base := by
  induction cs generalizing w with
  | nil => rfl
  | cons c cs ih =>
    calc (w.after text base).write (c :: cs) = ((w.writeChar c).after text base).write cs := by
          rw [← writeChar_after]; rfl
      _ = (w.write (c :: cs)).after text base := ih _

theorem beginExpression_after (anchored : Bool) :
    (w.after text base).beginExpression anchored = (w.beginExpression anchored).after text base := by
  simp only [beginExpression, line_after]
  rfl

theorem absorb_after (child : Writer) :
    (w.after text base).absorb child = (w.absorb child).after text base := by
  simp [absorb, after, Array.append_assoc, Nat.add_assoc]

theorem writeElements_after {α : Type} (l : Layout) (render : α → Writer → Except ε Writer) (first : Bool)
    (xs : List α) :
    writeElements l render first xs (w.after text base) =
      (writeElements l render first xs w).map (·.after text base) := by
  induction xs generalizing first w with
  | nil => rfl
  | cons x xs ih =>
    -- Whether a line breaks depends on columns only.
    have hbreaks : ∀ child more, l.breaks (w.after text base) child more = l.breaks w child more :=
      fun _ _ => rfl
    have hline : (if first then w.after text base else (w.after text base).write l.lineEnd).newline =
        (if first then w else w.write l.lineEnd).newline.after text base := by
      cases first <;> simp
    simp only [writeElements, fork_after, hbreaks, hline, absorb_after, ih]
    cases render x (if first then w.fork else w.fork.write l.separator) with
    | error e => rfl
    | ok child =>
      simp only [bind, Except.bind]
      split
      · cases render x (if first then w else w.write l.lineEnd).newline.fork <;> rfl
      · rfl

end

/-- No operation looks at what stands before the current line. -/
theorem Balanced.after {f : Writer → Except ε Writer} (hf : Balanced f) (text : Array Char) (base : Nat)
    (w : Writer) : f (w.after text base) = (f w).map (·.after text base) := by
  induction hf generalizing w with
  | fail e => rfl
  | skip => rfl
  | write cs => exact congrArg Except.ok (write_after ..)
  | @andThen f g _ _ ihf ihg =>
    dsimp only
    rw [ihf]
    cases f w with
    | error e => rfl
    | ok v => exact ihg v
  | @expression f anchored _ ih =>
    dsimp only
    rw [beginExpression_after, ih]
    cases f (w.beginExpression anchored) <;> rfl
  | elements l _ _ => exact writeElements_after ..
  | @forked f _ _ =>
    dsimp only
    rw [fork_after]
    cases f w.fork with
    | error e => rfl
    | ok child => exact congrArg Except.ok (absorb_after ..)

/-- A writer is its fork after the lines above the current one. -/
theorem fork_after_above {w : Writer} (hw : w.Valid) :
    w.fork.after (w.buffer.extract 0 w.lineStart) w.base = w := by
  have hbuffer : w.buffer.extract 0 w.lineStart ++ w.line = w.buffer := by
    rw [line, Array.extract_append_extract, Nat.min_eq_left (Nat.zero_le _),
      Nat.max_eq_right hw, Array.extract_size]
  have hsize : (w.buffer.extract 0 w.lineStart).size = w.lineStart := by
    rw [Array.size_extract]
    simp only [Valid] at hw
    omega
  simp [Writer.after, fork, hbuffer, hsize]

/-- Absorbing what a fork has become puts the lines above in front of it. -/
theorem absorb_eq_after {w child : Writer} (hw : w.Valid) (h : w.fork.Extends child) :
    w.absorb child = child.after (w.buffer.extract 0 w.lineStart) w.base := by
  obtain ⟨added, hadded⟩ := h.text
  have hline : child.buffer = w.line ++ added := hadded
  have habove : w.buffer = w.buffer.extract 0 w.lineStart ++ w.line :=
    congrArg buffer (fork_after_above hw).symm
  have hbuffer : w.buffer ++ child.buffer.extract child.base child.buffer.size =
      w.buffer.extract 0 w.lineStart ++ child.buffer := by
    rw [hline, show child.base = w.line.size from h.base, Array.size_append, Array.extract_append_right,
      ← Array.append_assoc, ← habove, Array.extract_size]
  have hsize : (w.buffer.extract 0 w.lineStart).size = w.lineStart :=
    congrArg lineStart (fork_after_above hw)
  simp only [absorb, Writer.after, hbuffer, hsize, show w.indents = child.indents from h.indents.symm,
    show w.anchors = child.anchors from h.anchors.symm]

/-- On a valid writer, running a program on a fork and absorbing it is running it in place. -/
theorem Balanced.absorb_fork {f : Writer → Except ε Writer} (hf : Balanced f) {w : Writer} (hw : w.Valid) :
    (f w.fork).map w.absorb = f w := by
  have h := hf.after (w.buffer.extract 0 w.lineStart) w.base w.fork
  rw [fork_after_above hw] at h
  rw [h]
  cases hc : f w.fork with
  | error e => rfl
  | ok child => exact congrArg Except.ok (absorb_eq_after hw (hf.extends hc))

/-- **Writing through a fork is writing in place.** Running a balanced program on a fork and absorbing what
it wrote leaves a writer as running it on the writer does: same buffer, columns, line, indentation and
anchors, and the same error if it fails. -/
theorem absorb_run_fork {f : Writer → Except ε Writer} (hf : Balanced f) {w : Writer} (hw : w.Reachable) :
    (f w.fork).map w.absorb = f w :=
  hf.absorb_fork hw.valid

/-- Four numbers, broken after the second and anchored at a column of the line they continue. -/
theorem absorb_run_fork_anchored :
    let numbers : Writer → Except Unit Writer := fun w => do
      return (← writeElements { separator := [' '], width := some 12 } (fun cs w => .ok (w.write cs)) true
        [['7'], ['1', '4'], ['2', '1'], ['2', '8']] (w.beginExpression true)).endExpression
    let w := (empty.write [' ', ' ', 'x', ' ', '=', ' ']).beginExpression false
    Balanced numbers ∧ w.Reachable ∧ (numbers w.fork).map w.absorb = numbers w ∧
      (numbers w).map text = .ok "  x = 7 14\n      21 28" := by
  intro numbers w
  have hf : Balanced numbers := .expression true (.elements _ fun cs _ => .write cs)
  have hw : w.Reachable := .beginExpression false (.write _ .empty)
  exact ⟨hf, hw, absorb_run_fork hf hw, by decide⟩

end Stencil.Writer
