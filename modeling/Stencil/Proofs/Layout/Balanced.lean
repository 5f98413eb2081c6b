import Stencil.Layout.Elements
import Stencil.Proofs.Agreement

/-!
# Balanced programs on a writer

What a template does to a writer is made of a few operations: it writes text, opens and closes
expressions, writes the elements of a list, and lets a fork write and absorbs it. A program is balanced if
it closes every expression it opens and no other (`Balanced`). Such a program only appends to the buffer
and leaves the open expressions as they were (`Balanced.extends`). The writers that can come up at all are
the `Reachable` ones; of these only one fact is needed here, that the current line lies inside the buffer.
-/

namespace Stencil.Writer

variable {ε : Type}

/-- A program that closes exactly the expressions it opens. It may stop with an error. -/
inductive Balanced : (Writer → Except ε Writer) → Prop where
  | fail (e : ε) : Balanced fun _ => .error e
  | skip : Balanced fun w => .ok w
  | write (cs : List Char) : Balanced fun w => .ok (w.write cs)
  | andThen {f g : Writer → Except ε Writer} : Balanced f → Balanced g → Balanced fun w => do g (← f w)
  | expression {f : Writer → Except ε Writer} (anchored : Bool) :
    Balanced f → Balanced fun w => do return (← f (w.beginExpression anchored)).endExpression
  | elements {α : Type} (l : Layout) {render : α → Writer → Except ε Writer} {xs : List α} :
    (∀ x ∈ xs, Balanced (render x)) → Balanced (writeElements l render true xs)
  | forked {f : Writer → Except ε Writer} :
    Balanced f → Balanced fun w => do return w.absorb (← f w.fork)

/-- A writer that some sequence of operations leads to. A fork is taken for a balanced program, and is
absorbed by the writer it was taken from. -/
inductive Reachable : Writer → Prop where
  | empty : Reachable .empty
  | write {w : Writer} (cs : List Char) : Reachable w → Reachable (w.write cs)
  | beginExpression {w : Writer} (anchored : Bool) : Reachable w → Reachable (w.beginExpression anchored)
  | endExpression {w : Writer} : Reachable w → Reachable w.endExpression
  | elements {ε α : Type} (l : Layout) {render : α → Writer → Except ε Writer} {xs : List α} {w w' : Writer} :
    Reachable w → (∀ x ∈ xs, Balanced (render x)) → writeElements l render true xs w = .ok w' → Reachable w'
  | fork {w : Writer} : Reachable w → Reachable w.fork
  | absorb {ε : Type} {f : Writer → Except ε Writer} {w child : Writer} :
    Reachable w → Balanced f → f w.fork = .ok child → Reachable (w.absorb child)

/-- The current line lies inside the buffer. -/
def Valid (w : Writer) : Prop :=
  w.lineStart ≤ w.buffer.size

/-- `w'` is `w` with more text at its end. -/
structure Extends (w w' : Writer) : Prop where
  text : ∃ added, w'.buffer = w.buffer ++ added
  base : w'.base = w.base
  indents : w'.indents = w.indents
  anchors : w'.anchors = w.anchors
  valid : w.Valid → w'.Valid

namespace Extends

theorem refl (w : Writer) : w.Extends w :=
  ⟨⟨#[], by simp⟩, rfl, rfl, rfl, id⟩

theorem trans {w₁ w₂ w₃ : Writer} (h : w₁.Extends w₂) (h' : w₂.Extends w₃) : w₁.Extends w₃ := by
  obtain ⟨a, ha⟩ := h.text
  obtain ⟨b, hb⟩ := h'.text
  refine ⟨⟨a ++ b, ?_⟩, h'.base.trans h.base, h'.indents.trans h.indents, h'.anchors.trans h.anchors,
    h'.valid ∘ h.valid⟩
  rw [hb, ha, Array.append_assoc]

theorem size_le {w w' : Writer} (h : w.Extends w') : w.buffer.size ≤ w'.buffer.size := by
  obtain ⟨a, ha⟩ := h.text
  rw [ha, Array.size_append]
  omega

end Extends

/-! ## The single operations -/

section
variable (w : Writer)

theorem extends_append (cs : List Char) : w.Extends (w.append cs) := by
  have hb : (w.append cs).buffer = w.buffer ++ cs.toArray := Array.ext' (by simp [append])
  refine ⟨⟨_, hb⟩, rfl, rfl, rfl, fun h => ?_⟩
  have : (w.append cs).lineStart = w.lineStart := rfl
  simp only [Valid, hb, this, Array.size_append] at h ⊢
  omega

theorem extends_newline : w.Extends w.newline :=
  ⟨⟨#['\n'], by simp [newline]⟩, rfl, rfl, rfl, fun _ => by simp [Valid, newline]⟩

theorem extends_writeIndent : w.Extends w.writeIndent := by
  have h : w.Extends { w with pendingIndent := false } := ⟨⟨#[], by simp⟩, rfl, rfl, rfl, id⟩
  exact (h.trans (extends_append _ _)).trans (extends_append _ _)

theorem extends_writeChar (c : Char) : w.Extends (w.writeChar c) := by
  unfold writeChar
  split
  · exact w.extends_newline
  · split
    · exact w.extends_writeIndent.trans (extends_append _ _)
    · exact w.extends_append [c]

theorem extends_write (cs : List Char) : w.Extends (w.write cs) := by
  induction cs generalizing w with
  | nil => exact .refl w
  | cons c cs ih => exact (w.extends_writeChar c).trans (ih (w.writeChar c))

/-- What is written inside an expression extends the writer around it. -/
theorem extends_endExpression {w' : Writer} (anchored : Bool) (h : (w.beginExpression anchored).Extends w') :
    w.Extends w'.endExpression :=
  ⟨h.text, h.base, by simp [endExpression, h.indents, beginExpression],
    by simp [endExpression, h.anchors, beginExpression], h.valid⟩

theorem size_line : w.line.size = w.buffer.size - w.lineStart := by
  simp [line]

theorem valid_fork : w.fork.Valid :=
  Nat.zero_le _

/-- What a fork writes extends the writer that absorbs it. -/
theorem extends_absorb {child : Writer} (h : w.fork.Extends child) : w.Extends (w.absorb child) := by
  refine ⟨⟨_, rfl⟩, rfl, rfl, rfl, fun hw => ?_⟩
  have hchild : child.lineStart ≤ child.buffer.size := h.valid w.valid_fork
  have hbase : child.base = w.line.size := h.base
  have hsize : w.line.size ≤ child.buffer.size := h.size_le
  rw [size_line] at hbase hsize
  simp only [Valid, absorb, Array.size_append, Array.size_extract] at hw ⊢
  omega

end

/-! ## Whole programs -/

section
variable {α : Type} {l : Layout} {render : α → Writer → Except ε Writer}

theorem extends_writeElements {xs : List α}
    (h : ∀ x ∈ xs, ∀ w w' : Writer, render x w = .ok w' → w.Extends w') (first : Bool) {w w' : Writer}
    (hw : writeElements l render first xs w = .ok w') : w.Extends w' := by
  induction xs generalizing first w with
  | nil =>
    cases hw
    exact .refl _
  | cons x xs ih =>
    have hx := h x List.mem_cons_self
    have ih := fun {v} => ih (fun y hy => h y (List.mem_cons_of_mem x hy)) false (w := v)
    rw [writeElements, bind_eq_ok] at hw
    obtain ⟨child, hc, hw⟩ := hw
    split at hw
    · -- the element is written once more, on a line of its own
      rw [bind_eq_ok] at hw
      obtain ⟨again, hv, hw⟩ := hw
      have hline : w.Extends (if first then w else w.write l.lineEnd).newline := by
        split
        · exact w.extends_newline
        · exact (w.extends_write _).trans (extends_newline _)
      exact (hline.trans (extends_absorb _ (hx _ _ hv))).trans (ih hw)
    · have hsep : w.fork.Extends (if first then w.fork else w.fork.write l.separator) := by
        split
        · exact .refl _
        · exact extends_write _ _
      exact (w.extends_absorb (hsep.trans (hx _ _ hc))).trans (ih hw)

end

/-- A balanced program appends to the buffer and leaves the open expressions as they were. -/
theorem Balanced.extends {f : Writer → Except ε Writer} (hf : Balanced f) {w w' : Writer}
    (h : f w = .ok w') : w.Extends w' := by
  induction hf generalizing w w' with
  | fail e => cases h
  | skip =>
    cases h
    exact .refl _
  | write cs =>
    cases h
    exact w.extends_write cs
  | andThen _ _ ihf ihg =>
    obtain ⟨v, hv, h⟩ := bind_eq_ok.1 h
    exact (ihf hv).trans (ihg h)
  | expression anchored _ ih =>
    obtain ⟨v, hv, h⟩ := bind_eq_ok.1 h
    cases h
    exact w.extends_endExpression anchored (ih hv)
  | elements l _ ih => exact extends_writeElements (fun x hx _ _ => ih x hx) true h
  | forked _ ih =>
    obtain ⟨v, hv, h⟩ := bind_eq_ok.1 h
    cases h
    exact w.extends_absorb (ih hv)

theorem Reachable.valid {w : Writer} (h : w.Reachable) : w.Valid := by
  induction h with
  | empty => exact Nat.zero_le _
  | write cs _ ih => exact (extends_write _ cs).valid ih
  | beginExpression _ _ ih => exact ih
  | endExpression _ ih => exact ih
  | elements l _ hr hw ih => exact ((Balanced.elements l hr).extends hw).valid ih
  | fork _ _ => exact valid_fork _
  | absorb _ hf hc ih => exact (extends_absorb _ (hf.extends hc)).valid ih

end Stencil.Writer
