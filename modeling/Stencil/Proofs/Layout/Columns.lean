import Stencil.Proofs.Layout.Ink

/-!
# Columns

A writer keeps the column of its end in a field of its own, and the indentations and anchors of the open
expressions on two stacks. `Aligned` is what holds between these fields and the current line: the column is
the width of the line, an expression inside another continues no further left than that one, and text stands
to the right of where the open expressions continue. What holds between a writer and what each operation makes of
it, holds for balanced programs (`Composed`, `Balanced.relates`). So what writing and the two ends of an expression
keep, a balanced program keeps (`Balanced.keeps`), and every reachable writer is aligned (`Reachable.aligned`).
-/

namespace Stencil.Writer

/-! ## What the operations keep -/

section
variable {ε : Type} {R : Writer → Writer → Prop} {P : Writer → Prop}

/-- A relation between a writer and what has become of it that holds of every step and of steps one after the
other, and that holds around an expression if it holds inside of it. -/
structure Composed (R : Writer → Writer → Prop) : Prop where
  refl : ∀ w, R w w
  trans : ∀ {w u v : Writer}, w.Extends u → u.Extends v → R w u → R u v → R w v
  writeChar : ∀ (w : Writer) (c : Char), R w (w.writeChar c)
  expression : ∀ {w v : Writer} (anchored : Bool), (w.beginExpression anchored).Extends v →
    R (w.beginExpression anchored) v → R w v.endExpression

namespace Composed

variable (hR : Composed R)
include hR

theorem write (w : Writer) (cs : List Char) : R w (w.write cs) := by
  induction cs generalizing w with
  | nil => exact hR.refl w
  | cons c cs ih => exact hR.trans (w.extends_writeChar c) (extends_write _ cs) (hR.writeChar w c) (ih _)

theorem beforeElement (l : Layout) (first broken : Bool) (w : Writer) :
    R w (if broken then w.afterBreak l first else w.afterSeparator l first) := by
  have hnewline : ∀ v : Writer, R v v.newline := fun v => hR.writeChar v '\n'
  unfold afterBreak afterSeparator
  cases broken <;> cases first
  · exact hR.write w _
  · exact hR.refl w
  · exact hR.trans (w.extends_write _) (extends_newline _) (hR.write w _) (hnewline _)
  · exact hnewline w

theorem writeElements {α : Type} {l : Layout} {render : α → Writer → Except ε Writer} {xs : List α}
    (hb : ∀ x ∈ xs, Balanced (render x))
    (hx : ∀ x ∈ xs, ∀ w v : Writer, w.Valid → render x w = .ok v → R w v) (first : Bool) {w v : Writer}
    (hw : w.Valid) (h : writeElements l render first xs w = .ok v) : R w v := by
  induction xs generalizing first w with
  | nil =>
    cases h
    exact hR.refl _
  | cons x xs ih =>
    obtain ⟨hbx, hb⟩ := List.forall_mem_cons.1 hb
    obtain ⟨hx, hxs⟩ := List.forall_mem_cons.1 hx
    obtain ⟨broken, hbroken⟩ := exists_writeElements_cons (l := l) hbx first xs hw
    rw [hbroken] at h
    obtain ⟨_, _, h⟩ := bind_eq_ok.1 h
    obtain ⟨u, hu, h⟩ := bind_eq_ok.1 h
    have hbefore := extends_beforeElement l first broken w
    have helement := hbx.extends hu
    have hvalid : u.Valid := (hbefore.trans helement).valid hw
    refine hR.trans (hbefore.trans helement) ?_ ?_ (ih hb hxs false hvalid h)
    · exact extends_writeElements (fun y hy _ _ h => (hb y hy).extends h) false h
    · exact hR.trans hbefore helement (hR.beforeElement l first broken w) (hx _ _ (hbefore.valid hw) hu)

end Composed

/-- A relation that is composed of its steps holds of balanced programs. -/
theorem Balanced.relates (hR : Composed R) {f : Writer → Except ε Writer} (hf : Balanced f) {w v : Writer}
    (hw : w.Valid) (h : f w = .ok v) : R w v := by
  induction hf generalizing w v with
  | fail e => cases h
  | skip =>
    cases h
    exact hR.refl _
  | write cs =>
    cases h
    exact hR.write w cs
  | andThen hf hg ihf ihg =>
    obtain ⟨u, hu, h⟩ := bind_eq_ok.1 h
    have hvalid : u.Valid := (hf.extends hu).valid hw
    exact hR.trans (hf.extends hu) (hg.extends h) (ihf hw hu) (ihg hvalid h)
  | expression anchored hf ih =>
    obtain ⟨u, hu, h⟩ := bind_eq_ok.1 h
    cases h
    exact hR.expression anchored (hf.extends hu) (ih hw hu)
  | elements l hb ih => exact hR.writeElements hb (fun x hx _ _ hw h => ih x hx hw h) true hw h
  | @forked f hf ih =>
    refine ih hw ?_
    rw [← hf.absorb_fork hw]
    exact h

theorem composed_extends : Composed Extends where
  refl := .refl
  trans _ _ h h' := h.trans h'
  writeChar := extends_writeChar
  expression anchored _ h := extends_endExpression _ anchored h

/-- What is kept where something is written, and where an expression begins or ends. -/
structure Kept (P : Writer → Prop) : Prop where
  valid : ∀ {w : Writer}, P w → w.Valid
  write : ∀ {w : Writer}, P w → ∀ cs, P (w.write cs)
  beginExpression : ∀ {w : Writer}, P w → ∀ anchored, P (w.beginExpression anchored)
  endExpression : ∀ {w : Writer}, P w → P w.endExpression

theorem Kept.composed (hP : Kept P) : Composed fun w v => P w → P v where
  refl _ := id
  trans _ _ h h' := h' ∘ h
  writeChar _ c hw := hP.write hw [c]
  expression anchored _ h hw := hP.endExpression (h (hP.beginExpression hw anchored))

theorem Kept.beforeElement (hP : Kept P) {w : Writer} (hw : P w) (l : Layout) (first broken : Bool) :
    P (if broken then w.afterBreak l first else w.afterSeparator l first) :=
  hP.composed.beforeElement l first broken w hw

/-- A balanced program keeps what its operations keep. -/
theorem Balanced.keeps (hP : Kept P) {f : Writer → Except ε Writer} (hf : Balanced f) {w w' : Writer}
    (hw : P w) (h : f w = .ok w') : P w' :=
  hf.relates hP.composed (hP.valid hw) h hw

/-- Every reachable writer has what a new one has and the operations and forks keep. -/
theorem Reachable.keeps (hP : Kept P) (hempty : P .empty) (hfork : ∀ {w : Writer}, P w → P w.fork) {w : Writer}
    (h : w.Reachable) : P w := by
  induction h with
  | empty => exact hempty
  | write cs _ ih => exact hP.write ih cs
  | beginExpression anchored _ ih => exact hP.beginExpression ih anchored
  | endExpression _ ih => exact hP.endExpression ih
  | elements l _ hb h ih => exact (Balanced.elements l hb).keeps hP ih h
  | fork _ ih => exact hfork ih
  | absorb _ hf hchild ih =>
    refine hf.keeps hP ih ?_
    rw [← hf.absorb_fork (hP.valid ih), hchild]
    rfl

end

/-! ## Aligned writers -/

/-- The column, the current line and the open expressions fit together. -/
structure Aligned (w : Writer) : Prop extends Tidy w where
  line : '\n' ∉ w.line.toList
  column : w.column = w.line.size
  pending : w.pendingIndent = true → w.column = 0
  paired : w.indents.length = w.anchors.length
  indents : w.indents.Pairwise fun inner outer => outer.length ≤ inner.length
  anchors : w.anchors.Pairwise fun inner outer => outer ≤ inner
  /-- Text stands to the right of where the open expressions continue. -/
  inside : w.pendingIndent = false →
    (∀ indent ∈ w.indents, indent.length ≤ w.column) ∧ ∀ anchor ∈ w.anchors, anchor ≤ w.column

/-- What stands before a further line of the innermost open expression. -/
def margin (w : Writer) : List Char :=
  w.indent ++ List.replicate (w.anchor - w.indent.length) ' '

theorem length_margin (w : Writer) : w.margin.length = w.continuationColumn := by
  rw [margin, continuationColumn, List.length_append, List.length_replicate]
  omega

theorem aligned_empty : empty.Aligned where
  toTidy := tidy_empty
  line := by simp [empty, Writer.line]
  column := rfl
  pending h := nomatch h
  paired := rfl
  indents := .nil
  anchors := .nil
  inside _ := ⟨List.forall_mem_nil _, List.forall_mem_nil _⟩

namespace Aligned

variable {w : Writer} (hw : w.Aligned)
include hw

theorem blank_margin : ∀ c ∈ w.margin, isInlineBlank c = true := by
  intro c hc
  rcases List.mem_append.1 hc with hc | hc
  · exact hw.toTidy.indent c hc
  · rw [List.eq_of_mem_replicate hc]
    rfl

theorem newline_notMem_margin : '\n' ∉ w.margin :=
  fun hc => absurd (hw.blank_margin _ hc) (by decide)

/-- A pending line begins with the margin. -/
theorem lead_eq : w.lead = if w.pendingIndent then w.margin else [] := by
  rw [lead, margin]
  split
  · next h => rw [hw.pending h, Nat.zero_add]
  · rfl

/-- After a newline, the margin comes next. -/
theorem lead_newline : w.newline.lead = w.margin := by
  cases hi : w.indents with
  | nil =>
    have ha : w.anchors = [] := by simpa [hi] using hw.paired.symm
    simp [lead, margin, Writer.newline, Writer.indent, Writer.anchor, hi, ha]
  | cons indent outer => simp [lead, margin, Writer.newline, Writer.indent, Writer.anchor, hi]

/-- The next character stands right behind the line and what stands before that character. -/
theorem length_line_lead : (w.line.toList ++ w.lead).length = w.nextColumn := by
  rw [List.length_append, Array.length_toList, ← hw.column, hw.lead_eq, nextColumn]
  split
  · next h => rw [hw.pending h, length_margin, Nat.zero_add]
  · rfl

theorem newline_notMem_lead : '\n' ∉ w.lead := by
  rw [hw.lead_eq]
  split
  · exact hw.newline_notMem_margin
  · exact List.not_mem_nil

theorem length_le_indent : ∀ indent ∈ w.indents, indent.length ≤ w.indent.length := by
  have h := hw.indents
  rw [Writer.indent]
  cases hi : w.indents with
  | nil => simp
  | cons inner outer =>
    rw [hi, List.pairwise_cons] at h
    intro indent hmem
    rcases List.mem_cons.1 hmem with rfl | hmem
    · exact Nat.le_refl _
    · exact h.1 indent hmem

theorem le_anchor : ∀ anchor ∈ w.anchors, anchor ≤ w.anchor := by
  have h := hw.anchors
  rw [Writer.anchor]
  cases ha : w.anchors with
  | nil => simp
  | cons inner outer =>
    rw [ha, List.pairwise_cons] at h
    intro anchor hmem
    rcases List.mem_cons.1 hmem with rfl | hmem
    · exact Nat.le_refl _
    · exact h.1 anchor hmem

/-- The open expressions continue no further right than where the next character stands. -/
theorem le_nextColumn :
    (∀ indent ∈ w.indents, indent.length ≤ w.nextColumn) ∧ ∀ anchor ∈ w.anchors, anchor ≤ w.nextColumn := by
  rw [nextColumn]
  split
  · rw [continuationColumn]
    constructor
    · exact fun indent hmem => Nat.le_trans (hw.length_le_indent indent hmem) (Nat.le_max_left _ _)
    · exact fun anchor hmem => Nat.le_trans (hw.le_anchor anchor hmem) (Nat.le_max_right _ _)
  · next h => exact hw.inside (by simpa using h)

theorem continuationColumn_le : w.continuationColumn ≤ w.nextColumn := by
  rw [continuationColumn, Writer.indent, Writer.anchor]
  refine Nat.max_le.2 ⟨?_, ?_⟩
  · cases hi : w.indents with
    | nil => exact Nat.zero_le _
    | cons indent _ => exact hw.le_nextColumn.1 indent (by simp [hi])
  · cases ha : w.anchors with
    | nil => exact Nat.zero_le _
    | cons anchor _ => exact hw.le_nextColumn.2 anchor (by simp [ha])

theorem newline : w.newline.Aligned where
  toTidy := w.extends_newline.tidy hw.toTidy
  line := by simp
  column := by
    rw [line_newline]
    rfl
  pending _ := rfl
  paired := hw.paired
  indents := hw.indents
  anchors := hw.anchors
  inside h := by
    have hindents : w.indents = [] := by simpa [Writer.newline] using h
    have hanchors : w.anchors = [] := by simpa [hindents] using hw.paired.symm
    simp [Writer.newline, hindents, hanchors]

/-- Text without a newline goes behind what stands before the next character. -/
theorem resume {cs : List Char} (hcs : '\n' ∉ cs) : (w.resume (w.lead ++ cs)).Aligned where
  valid := valid_resume hw.valid _
  blank := hw.blank
  line := by
    rw [toList_line_resume hw.valid]
    simp [hw.line, hw.newline_notMem_lead, hcs]
  column := by
    rw [← Array.length_toList, toList_line_resume hw.valid, List.length_append, Array.length_toList, ← hw.column]
    rfl
  pending h := nomatch h
  paired := hw.paired
  indents := hw.indents
  anchors := hw.anchors
  inside _ := by
    have hcolumn : w.nextColumn ≤ (w.resume (w.lead ++ cs)).column := by
      rw [← hw.length_line_lead, List.length_append, Array.length_toList, ← hw.column]
      simp only [Writer.resume, Writer.append, List.length_append]
      omega
    exact ⟨fun indent hmem => Nat.le_trans (hw.le_nextColumn.1 indent hmem) hcolumn,
      fun anchor hmem => Nat.le_trans (hw.le_nextColumn.2 anchor hmem) hcolumn⟩

theorem writeChar (c : Char) : (w.writeChar c).Aligned := by
  by_cases hc : c = '\n'
  · subst hc
    exact hw.newline
  · rw [writeChar_eq w hc]
    exact hw.resume (by simpa using Ne.symm hc)

theorem write (cs : List Char) : (w.write cs).Aligned := by
  induction cs generalizing w with
  | nil => exact hw
  | cons c cs ih => exact ih (hw.writeChar c)

theorem beginExpression (anchored : Bool) : (w.beginExpression anchored).Aligned where
  toTidy := hw.toTidy.beginExpression anchored
  line := hw.line
  column := hw.column
  pending := hw.pending
  paired := congrArg Nat.succ hw.paired
  indents := by
    refine .cons ?_ hw.indents
    split
    · next h =>
      -- The new indentation is the whole line, and text stands to the right of the open expressions.
      have hp : w.pendingIndent = false := by simpa using (Bool.and_eq_true_iff.1 h).1
      intro indent hmem
      have hline := (hw.inside hp).1 indent hmem
      rwa [hw.column, ← Array.length_toList] at hline
    · exact hw.length_le_indent
  anchors := by
    refine .cons ?_ hw.anchors
    split
    · exact fun anchor hmem => Nat.le_trans (hw.le_anchor anchor hmem) (Nat.le_max_right _ _)
    · exact hw.le_anchor
  inside h := by
    have hp : w.pendingIndent = false := h
    have hnext : w.nextColumn = w.column := by simp [nextColumn, hp]
    have hcontinue := hw.continuationColumn_le
    rw [hnext, continuationColumn] at hcontinue
    constructor
    · refine List.forall_mem_cons.2 ⟨?_, (hw.inside hp).1⟩
      split
      · rw [Array.length_toList, ← hw.column]
        exact Nat.le_refl _
      · exact Nat.le_trans (Nat.le_max_left _ _) hcontinue
    · refine List.forall_mem_cons.2 ⟨?_, (hw.inside hp).2⟩
      rw [hnext]
      split
      · exact Nat.max_le.2 ⟨Nat.le_refl _, Nat.le_trans (Nat.le_max_right _ _) hcontinue⟩
      · exact Nat.le_trans (Nat.le_max_right _ _) hcontinue

theorem endExpression : w.endExpression.Aligned where
  toTidy := hw.toTidy.endExpression
  line := hw.line
  column := hw.column
  pending := hw.pending
  paired := by simp [Writer.endExpression, hw.paired]
  indents := hw.indents.sublist (List.tail_sublist _)
  anchors := hw.anchors.sublist (List.tail_sublist _)
  inside h := ⟨fun indent hmem => (hw.inside h).1 indent (List.mem_of_mem_tail hmem),
    fun anchor hmem => (hw.inside h).2 anchor (List.mem_of_mem_tail hmem)⟩

theorem fork : w.fork.Aligned := by
  have hline : w.fork.line = w.line := Array.extract_size
  exact {
    valid := w.valid_fork
    blank := hw.blank
    line := by rw [hline]; exact hw.line
    column := by rw [hline]; exact hw.column
    pending := hw.pending
    paired := hw.paired
    indents := hw.indents
    anchors := hw.anchors
    inside := hw.inside }

end Aligned

theorem kept_aligned : Kept Aligned where
  valid hw := hw.valid
  write hw cs := hw.write cs
  beginExpression hw anchored := hw.beginExpression anchored
  endExpression hw := hw.endExpression

theorem Reachable.aligned {w : Writer} (h : w.Reachable) : w.Aligned :=
  h.keeps kept_aligned aligned_empty Aligned.fork

end Stencil.Writer
