import Stencil.Proofs.Layout.Fork

/-!
# Elements without forks

The elements of an expression are written on forks. If each of them is written by a balanced program, the
forks can be forgotten: an element is written in place, after its separator or, where the line is broken,
at the start of a new line (`writeElements_cons`). Only whether the line is broken is still read off a fork.
-/

namespace Stencil.Writer

variable {α ε : Type}

/-- The writer on which an element is written that follows the line: the separator stands before every
element but the first. -/
def afterSeparator (l : Layout) (first : Bool) (w : Writer) : Writer :=
  if first then w else w.write l.separator

/-- The writer on which an element is written that begins a line. -/
def afterBreak (l : Layout) (first : Bool) (w : Writer) : Writer :=
  (if first then w else w.write l.lineEnd).newline

theorem valid_afterBreak (l : Layout) (first : Bool) (w : Writer) : (w.afterBreak l first).Valid := by
  simp [Valid, afterBreak, newline]

/-- Before an element, text is added to the line and perhaps the line is ended. -/
theorem extends_beforeElement (l : Layout) (first broken : Bool) (w : Writer) :
    w.Extends (if broken then w.afterBreak l first else w.afterSeparator l first) := by
  unfold afterBreak afterSeparator
  cases broken <;> cases first
  · exact w.extends_write _
  · exact .refl w
  · exact (w.extends_write _).trans (extends_newline _)
  · exact w.extends_newline

/-- The separator and the element after it are one balanced program. -/
theorem Balanced.afterSeparator {f : Writer → Except ε Writer} (hf : Balanced f) (l : Layout) (first : Bool) :
    Balanced fun w => f (w.afterSeparator l first) := by
  cases first with
  | true => exact hf
  | false => exact .andThen (.write l.separator) hf

/-- The elements from `x` on: `x` is written on a fork to see how wide its line gets, and then it is
written in place, on the line or on a new one. -/
theorem writeElements_cons {l : Layout} {render : α → Writer → Except ε Writer} {x : α}
    (hx : Balanced (render x)) (first : Bool) (xs : List α) {w : Writer} (hw : w.Valid) :
    writeElements l render first (x :: xs) w = (do
      let child ← render x (w.fork.afterSeparator l first)
      let written ← render x
        (if l.breaks w child !xs.isEmpty then w.afterBreak l first else w.afterSeparator l first)
      writeElements l render false xs written) := by
  have hline := (hx.afterSeparator l first).absorb_fork hw
  have hnew := hx.absorb_fork (valid_afterBreak l first w)
  rw [writeElements]
  simp only [afterSeparator] at hline ⊢
  cases hc : render x (if first then w.fork else w.fork.write l.separator) with
  | error e => rfl
  | ok child =>
    rw [hc] at hline
    simp only [bind, Except.bind]
    split
    · rw [← hnew]
      unfold afterBreak
      cases render x (if first then w else w.write l.lineEnd).newline.fork <;> rfl
    · rw [← hline]
      rfl

/-- The elements from `x` on, without forks: `x` is written on the line, which may fail, and then where it
stands, which the layout decides. -/
theorem exists_writeElements_cons {l : Layout} {render : α → Writer → Except ε Writer} {x : α}
    (hx : Balanced (render x)) (first : Bool) (xs : List α) {w : Writer} (hw : w.Valid) :
    ∃ broken : Bool, writeElements l render first (x :: xs) w = (do
      let _ ← render x (w.afterSeparator l first)
      let written ← render x (if broken then w.afterBreak l first else w.afterSeparator l first)
      writeElements l render false xs written) := by
  rw [writeElements_cons hx first xs hw, ← (hx.afterSeparator l first).absorb_fork hw]
  cases hc : render x (w.fork.afterSeparator l first) with
  | error e => exact ⟨false, rfl⟩
  | ok child => exact ⟨l.breaks w child !xs.isEmpty, rfl⟩

/-- Without a width the elements are written one after the other. -/
theorem writeElements_cons_of_width_eq_none {l : Layout} (hl : l.width = none)
    {render : α → Writer → Except ε Writer} {x : α} (hx : Balanced (render x)) (first : Bool) (xs : List α)
    {w : Writer} (hw : w.Valid) :
    writeElements l render first (x :: xs) w =
      (do writeElements l render false xs (← render x (w.afterSeparator l first))) := by
  have hbreaks : ∀ child more, l.breaks w child more = false := by
    intro child more
    rw [Layout.breaks, hl]
  rw [writeElements_cons hx first xs hw, ← (hx.afterSeparator l first).absorb_fork hw]
  simp only [hbreaks, Bool.false_eq_true, if_false]
  rw [← (hx.afterSeparator l first).absorb_fork hw]
  cases hc : render x (w.fork.afterSeparator l first) <;> rfl

/-- Elements that are written alike one by one are written alike together. -/
theorem agree_writeElements {β : Type} {cut : ε → Prop} (l : Layout) {r : α → Writer → Except ε Writer}
    {r' : β → Writer → Except ε Writer} {xs : List α} {ys : List β}
    (h : List.Forall₂ (fun x y => ∀ w, AgreeUnless cut Eq (r x w) (r' y w)) xs ys) (first : Bool) (w : Writer) :
    AgreeUnless cut Eq (writeElements l r first xs w) (writeElements l r' first ys w) := by
  induction h generalizing first w with
  | nil => exact .ok rfl
  | @cons x y xs ys hxy hrest ih =>
    have hmore : xs.isEmpty = ys.isEmpty := by cases hrest <;> rfl
    rw [writeElements, writeElements, hmore]
    refine (hxy _).bind ?_
    rintro child _ rfl
    split
    · refine (hxy _).bind ?_
      rintro again _ rfl
      exact ih false _
    · exact ih false _

/-- Elements that stand for others are written as these. -/
theorem writeElements_map {β : Type} (l : Layout) {r : β → Writer → Except ε Writer} {r' : α → Writer → Except ε Writer}
    {g : α → β} (h : ∀ x w, r (g x) w = r' x w) (xs : List α) (first : Bool) (w : Writer) :
    writeElements l r first (xs.map g) w = writeElements l r' first xs w := by
  have helements : List.Forall₂ (fun y x => ∀ w, Agree Eq (r y w) (r' x w)) (xs.map g) xs := by
    rw [List.forall₂_map_left_iff]
    refine List.forall₂_same.2 fun x _ w => ?_
    rw [h]
    exact .rfl' (fun _ => rfl) _
  exact (agree_writeElements l helements first w).eq_of fun _ _ h => h

end Stencil.Writer
