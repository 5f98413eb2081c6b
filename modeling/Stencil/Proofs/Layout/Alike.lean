import Stencil.Proofs.Layout.Columns

/-!
# Writers that go on alike

An expression that starts at the beginning of the output gives its lines no indentation and no anchor, and so
does no expression at all. Two writers are alike if they are at the same place and their open expressions
give the same indentations and anchors, from the inside out, where an expression that is not open counts as
one that gives none (`Alike`). Only whether the current line is pending may differ, and this makes no
difference where nothing is indented. Whatever is written, alike writers stay alike; elements are written by
both on the same lines (`Alike.writeElements`).
-/

namespace Stencil

/-! ## Stacks with defaults -/

section
variable {α : Type} {d x : α} {xs ys zs : List α}

/-- The stacks have the same entries from the top down; below the last entry of a stack come defaults. -/
def SameStack (d : α) (xs ys : List α) : Prop :=
  ∀ n, xs.getD n d = ys.getD n d

namespace SameStack

theorem symm (h : SameStack d xs ys) : SameStack d ys xs :=
  fun n => (h n).symm

theorem trans (h : SameStack d xs ys) (h' : SameStack d ys zs) : SameStack d xs zs :=
  fun n => (h n).trans (h' n)

theorem cons (h : SameStack d xs ys) (x : α) : SameStack d (x :: xs) (x :: ys)
  | 0 => rfl
  | n + 1 => h n

/-- A default on a stack of defaults is like no entry. -/
theorem cons_nil (h : SameStack d xs []) : SameStack d (d :: xs) []
  | 0 => rfl
  | n + 1 => h n

theorem tail (h : SameStack d xs ys) : SameStack d xs.tail ys.tail := by
  have htail : ∀ (xs : List α) n, xs.tail.getD n d = xs.getD (n + 1) d := by
    intro xs n
    cases xs <;> rfl
  intro n
  rw [htail, htail, h]

theorem headD_eq (h : SameStack d xs ys) : xs.headD d = ys.headD d := by
  have hhead : ∀ xs : List α, xs.headD d = xs.getD 0 d := by
    intro xs
    cases xs <;> rfl
  rw [hhead, hhead, h]

end SameStack
end

namespace Writer

variable {w v : Writer}

/-! ## Alike writers -/

/-- The open expressions indent no line. -/
structure Unindented (w : Writer) : Prop where
  indents : SameStack [] w.indents []
  anchors : SameStack 0 w.anchors []

/-- The writers are at the same place, in expressions that continue their lines in the same way. -/
structure Alike (w v : Writer) : Prop where
  aligned : w.Aligned
  aligned' : v.Aligned
  buffer : w.buffer = v.buffer
  lineStart : w.lineStart = v.lineStart
  indents : SameStack [] w.indents v.indents
  anchors : SameStack 0 w.anchors v.anchors
  pending : w.pendingIndent = v.pendingIndent ∨ w.Unindented

/-- Outside of all expressions nothing is indented. -/
theorem unindented_of_indents_eq_nil (hw : w.Aligned) (h : w.indents = []) : w.Unindented := by
  have hanchors : w.anchors = [] := by simpa [h] using hw.paired.symm
  exact ⟨h ▸ fun _ => rfl, hanchors ▸ fun _ => rfl⟩

/-- An expression that begins on an empty line without indentation gives none to its lines. -/
theorem beginExpression_of_empty (h : w.line.toList = [] ∧ w.indent = [] ∧ w.anchor = 0 ∧ w.nextColumn = 0)
    (anchored : Bool) :
    w.beginExpression anchored = { w with indents := [] :: w.indents, anchors := 0 :: w.anchors } := by
  obtain ⟨hline, hindent, hanchor, hnext⟩ := h
  simp [beginExpression, hline, hindent, hanchor, hnext]

namespace Alike

theorem refl (h : w.Aligned) : Alike w w :=
  ⟨h, h, rfl, rfl, fun _ => rfl, fun _ => rfl, .inl rfl⟩

theorem symm (h : Alike w v) : Alike v w where
  aligned := h.aligned'
  aligned' := h.aligned
  buffer := h.buffer.symm
  lineStart := h.lineStart.symm
  indents := h.indents.symm
  anchors := h.anchors.symm
  pending := h.pending.imp Eq.symm fun hnone =>
    ⟨h.indents.symm.trans hnone.indents, h.anchors.symm.trans hnone.anchors⟩

section
variable (h : Alike w v)
include h

theorem line_eq : w.line = v.line := by
  rw [line, line, h.buffer, h.lineStart]

theorem column_eq : w.column = v.column := by
  rw [h.aligned.column, h.aligned'.column, h.line_eq]

theorem indent_eq : w.indent = v.indent :=
  h.indents.headD_eq

theorem anchor_eq : w.anchor = v.anchor :=
  h.anchors.headD_eq

theorem continuationColumn_eq : w.continuationColumn = v.continuationColumn := by
  rw [continuationColumn, continuationColumn, h.indent_eq, h.anchor_eq]

/-- Where one line is pending and the other is not, both are empty and stay so until text comes. -/
theorem empty_of_pending_ne (hne : w.pendingIndent ≠ v.pendingIndent) :
    w.line.toList = [] ∧ w.indent = [] ∧ w.anchor = 0 ∧ w.nextColumn = 0 := by
  have hnone := h.pending.resolve_left hne
  have hcolumn : w.column = 0 := by
    cases hw : w.pendingIndent with
    | true => exact h.aligned.pending hw
    | false =>
      rw [h.column_eq]
      exact h.aligned'.pending (by simpa [hw] using hne.symm)
  have hindent : w.indent = [] := hnone.indents.headD_eq
  have hanchor : w.anchor = 0 := hnone.anchors.headD_eq
  refine ⟨?_, hindent, hanchor, ?_⟩
  · rw [← List.length_eq_zero_iff, Array.length_toList, ← h.aligned.column, hcolumn]
  · simp [nextColumn, continuationColumn, hcolumn, hindent, hanchor]

theorem nextColumn_eq : w.nextColumn = v.nextColumn := by
  by_cases hp : w.pendingIndent = v.pendingIndent
  · rw [nextColumn, nextColumn, hp, h.continuationColumn_eq, h.column_eq]
  · obtain ⟨-, -, -, hw⟩ := h.empty_of_pending_ne hp
    obtain ⟨-, -, -, hv⟩ := h.symm.empty_of_pending_ne (Ne.symm hp)
    rw [hw, hv]

theorem lead_eq : w.lead = v.lead := by
  rw [lead, lead, ← h.column_eq, ← h.indent_eq, ← h.anchor_eq]
  by_cases hp : w.pendingIndent = v.pendingIndent
  · rw [hp]
  · obtain ⟨-, hindent, hanchor, -⟩ := h.empty_of_pending_ne hp
    simp [hindent, hanchor]

/-! ## Writing -/

theorem newline : Alike w.newline v.newline where
  aligned := h.aligned.newline
  aligned' := h.aligned'.newline
  buffer := by rw [Writer.newline, Writer.newline, h.buffer]
  lineStart := by rw [Writer.newline, Writer.newline, h.buffer]
  indents := h.indents
  anchors := h.anchors
  pending := by
    -- A line is pending inside an expression, and the open expressions may be one more in one writer.
    by_cases hw : w.indents = []
    · exact .inr (unindented_of_indents_eq_nil h.aligned.newline hw)
    by_cases hv : v.indents = []
    · have hnone := unindented_of_indents_eq_nil h.aligned' hv
      exact .inr ⟨h.indents.trans hnone.indents, h.anchors.trans hnone.anchors⟩
    · have hempty : w.indents.isEmpty = v.indents.isEmpty := by
        rw [List.isEmpty_eq_false_iff.2 hw, List.isEmpty_eq_false_iff.2 hv]
      exact .inl (congrArg (! ·) hempty)

theorem writeChar (c : Char) : Alike (w.writeChar c) (v.writeChar c) := by
  by_cases hc : c = '\n'
  · subst hc
    exact h.newline
  · have haligned := h.aligned.writeChar c
    have haligned' := h.aligned'.writeChar c
    rw [writeChar_eq w hc, h.lead_eq] at haligned ⊢
    rw [writeChar_eq v hc] at haligned' ⊢
    have hbuffer : (w.resume (v.lead ++ [c])).buffer = (v.resume (v.lead ++ [c])).buffer := by
      rw [resume, resume, append, append, h.buffer]
    exact ⟨haligned, haligned', hbuffer, h.lineStart, h.indents, h.anchors, .inl rfl⟩

theorem write (cs : List Char) : Alike (w.write cs) (v.write cs) := by
  induction cs generalizing w v with
  | nil => exact h
  | cons c cs ih => exact ih (h.writeChar c)

theorem fork : Alike w.fork v.fork where
  aligned := h.aligned.fork
  aligned' := h.aligned'.fork
  buffer := h.line_eq
  lineStart := rfl
  indents := h.indents
  anchors := h.anchors
  pending := h.pending.imp id fun hnone => ⟨hnone.indents, hnone.anchors⟩

/-! ## Expressions -/

theorem beginExpression (anchored : Bool) : Alike (w.beginExpression anchored) (v.beginExpression anchored) := by
  have haligned := h.aligned.beginExpression anchored
  have haligned' := h.aligned'.beginExpression anchored
  by_cases hp : w.pendingIndent = v.pendingIndent
  · refine ⟨haligned, haligned', h.buffer, h.lineStart, ?_, ?_, .inl hp⟩
    · simp only [Writer.beginExpression, hp, h.line_eq, h.indent_eq]
      exact h.indents.cons _
    · simp only [Writer.beginExpression, h.nextColumn_eq, h.anchor_eq]
      exact h.anchors.cons _
  · have hnone := h.pending.resolve_left hp
    rw [beginExpression_of_empty (h.empty_of_pending_ne hp)] at haligned ⊢
    rw [beginExpression_of_empty (h.symm.empty_of_pending_ne (Ne.symm hp))] at haligned' ⊢
    exact ⟨haligned, haligned', h.buffer, h.lineStart, h.indents.cons [], h.anchors.cons 0,
      .inr ⟨hnone.indents.cons_nil, hnone.anchors.cons_nil⟩⟩

theorem endExpression : Alike w.endExpression v.endExpression where
  aligned := h.aligned.endExpression
  aligned' := h.aligned'.endExpression
  buffer := h.buffer
  lineStart := h.lineStart
  indents := h.indents.tail
  anchors := h.anchors.tail
  pending := h.pending.imp id fun hnone => ⟨hnone.indents.tail, hnone.anchors.tail⟩

/-! ## Elements -/

theorem afterSeparator (l : Layout) (first : Bool) : Alike (w.afterSeparator l first) (v.afterSeparator l first) := by
  unfold Writer.afterSeparator
  split
  · exact h
  · exact h.write _

theorem afterBreak (l : Layout) (first : Bool) : Alike (w.afterBreak l first) (v.afterBreak l first) := by
  unfold Writer.afterBreak
  split
  · exact h.newline
  · exact (h.write _).newline

theorem breaks_eq (l : Layout) {child child' : Writer} (hchild : Alike child child') (more : Bool) :
    l.breaks w child more = l.breaks v child' more := by
  rw [Layout.breaks, Layout.breaks, h.continuationColumn_eq, h.nextColumn_eq, firstLineWidth, firstLineWidth,
    hchild.buffer]

end

/-- Elements that alike writers write alike one by one, they write alike together, on the same lines. -/
theorem writeElements {α β ε : Type} {cut : ε → Prop} (l : Layout) {r : α → Writer → Except ε Writer}
    {r' : β → Writer → Except ε Writer} (hb : ∀ x, Balanced (r x)) (hb' : ∀ x, Balanced (r' x)) {xs : List α}
    {ys : List β} (hxs : List.Forall₂ (fun x y => ∀ w v, Alike w v → AgreeUnless cut Alike (r x w) (r' y v)) xs ys)
    (first : Bool) (h : Alike w v) :
    AgreeUnless cut Alike (w.writeElements l r first xs) (v.writeElements l r' first ys) := by
  induction hxs generalizing first w v with
  | nil => exact .ok h
  | @cons x y xs ys hxy hrest ih =>
    have hmore : xs.isEmpty = ys.isEmpty := by cases hrest <;> rfl
    rw [writeElements_cons (hb x) first xs h.aligned.valid, writeElements_cons (hb' y) first ys h.aligned'.valid]
    refine (hxy _ _ (h.fork.afterSeparator l first)).bind fun child child' hchild => ?_
    rw [h.breaks_eq l hchild, hmore]
    split
    · exact (hxy _ _ (h.afterBreak l first)).bind fun _ _ hv => ih false hv
    · exact (hxy _ _ (h.afterSeparator l first)).bind fun _ _ hv => ih false hv

/-- At the beginning of the output an expression is like none. -/
theorem beginExpression_empty (anchored : Bool) : Alike (Writer.empty.beginExpression anchored) .empty where
  aligned := aligned_empty.beginExpression anchored
  aligned' := aligned_empty
  buffer := rfl
  lineStart := rfl
  indents := SameStack.cons_nil fun _ => rfl
  anchors := by
    cases anchored
    · exact SameStack.cons_nil fun _ => rfl
    · exact SameStack.cons_nil fun _ => rfl
  pending := .inl rfl

end Alike
end Writer
end Stencil
