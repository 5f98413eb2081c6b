import Stencil.Proofs.Layout.Elements
import Stencil.Proofs.Layout.Line

/-!
# Ink

The ink of a text is what is left of it without blanks. Whatever the layout decides, indentation, padding up
to an anchor and broken lines, puts down no ink: text adds its own ink only (`ink_write`), and elements are
written whole, in order and once each, whether lines are broken before them or not
(`SameInk.writeElements`).
-/

namespace Stencil

/-- The text without its blanks. -/
def ink (cs : List Char) : List Char :=
  cs.filter fun c => !isBlank c

theorem ink_append (cs ds : List Char) : ink (cs ++ ds) = ink cs ++ ink ds :=
  List.filter_append ..

theorem ink_eq_nil {cs : List Char} (h : ∀ c ∈ cs, isBlank c = true) : ink cs = [] := by
  rw [ink, List.filter_eq_nil_iff]
  intro c hc
  rw [h c hc]
  decide

theorem ink_dropWhile_isBlank (cs : List Char) : ink (cs.dropWhile isBlank) = ink cs := by
  induction cs with
  | nil => rfl
  | cons c cs ih =>
    rw [List.dropWhile_cons]
    split
    · rw [ih, ink, ink, List.filter_cons_of_neg (by simpa using ‹_›)]
    · rfl

/-- Trimming takes off blanks only. -/
theorem ink_trimEnd (cs : List Char) : ink (trimEnd cs) = ink cs := by
  rw [trimEnd, ink, List.filter_reverse]
  change (ink (cs.reverse.dropWhile isBlank)).reverse = ink cs
  rw [ink_dropWhile_isBlank, ink, List.filter_reverse, List.reverse_reverse]
  rfl

namespace Writer

/-! ## Tidy writers -/

/-- The current line lies inside the buffer, and indentations are blank. -/
structure Tidy (w : Writer) : Prop where
  valid : w.Valid
  blank : ∀ indent ∈ w.indents, ∀ c ∈ indent, isInlineBlank c = true

theorem tidy_empty : empty.Tidy :=
  ⟨Nat.zero_le _, by simp [empty]⟩

theorem Extends.tidy {w w' : Writer} (h : w.Extends w') (hw : w.Tidy) : w'.Tidy :=
  ⟨h.valid hw.valid, h.indents ▸ hw.blank⟩

namespace Tidy

variable {w : Writer} (hw : w.Tidy)
include hw

theorem indent : ∀ c ∈ w.indent, isInlineBlank c = true := by
  have hb := hw.blank
  rw [Writer.indent]
  cases hi : w.indents with
  | nil => simp
  | cons i is => exact hb i (by rw [hi]; exact List.mem_cons_self)

theorem beginExpression (anchored : Bool) : (w.beginExpression anchored).Tidy := by
  refine ⟨hw.valid, ?_⟩
  intro indent hmem
  rcases List.mem_cons.1 hmem with rfl | hmem
  · split
    · next h => exact List.all_eq_true.1 (Bool.and_eq_true_iff.1 h).2
    · exact hw.indent
  · exact hw.blank indent hmem

theorem endExpression : w.endExpression.Tidy :=
  ⟨hw.valid, fun indent hmem => hw.blank indent (List.mem_of_mem_tail hmem)⟩

theorem ink_lead : ink w.lead = [] := by
  refine ink_eq_nil fun c hc => isBlank_of_isInlineBlank ?_
  rw [lead] at hc
  split at hc
  · rcases List.mem_append.1 hc with hc | hc
    · exact hw.indent c hc
    · rw [List.eq_of_mem_replicate hc]
      rfl
  · cases hc

theorem ink_writeChar (c : Char) : ink (w.writeChar c).buffer.toList = ink w.buffer.toList ++ ink [c] := by
  by_cases hc : c = '\n'
  · subst hc
    have : w.writeChar '\n' = w.newline := rfl
    simp [this, newline, ink_append]
  · rw [writeChar_eq w hc, toList_buffer_resume, ink_append, ink_append, hw.ink_lead, List.nil_append]

/-- Text puts down its own ink and no other. -/
theorem ink_write (cs : List Char) : ink (w.write cs).buffer.toList = ink w.buffer.toList ++ ink cs := by
  induction cs generalizing w with
  | nil => exact (List.append_nil _).symm
  | cons c cs ih =>
    have hnext : (w.writeChar c).Tidy := (w.extends_writeChar c).tidy hw
    calc ink (w.write (c :: cs)).buffer.toList = ink ((w.writeChar c).write cs).buffer.toList := rfl
      _ = ink w.buffer.toList ++ ink [c] ++ ink cs := by rw [ih hnext, hw.ink_writeChar]
      _ = ink w.buffer.toList ++ ink (c :: cs) := by rw [List.append_assoc, ← ink_append]; rfl

theorem afterSeparator (l : Layout) (first : Bool) : (w.afterSeparator l first).Tidy := by
  unfold Writer.afterSeparator
  split
  · exact hw
  · exact (w.extends_write _).tidy hw

theorem ink_afterSeparator (l : Layout) (first : Bool) :
    ink (w.afterSeparator l first).buffer.toList =
      ink w.buffer.toList ++ if first then [] else ink l.separator := by
  unfold Writer.afterSeparator
  split
  · exact (List.append_nil _).symm
  · exact hw.ink_write _

theorem afterBreak (l : Layout) (first : Bool) : (w.afterBreak l first).Tidy := by
  unfold Writer.afterBreak
  split
  · exact w.extends_newline.tidy hw
  · exact ((w.extends_write _).trans (extends_newline _)).tidy hw

/-- A line is broken without ink: the separator loses blanks only. -/
theorem ink_afterBreak (l : Layout) (first : Bool) :
    ink (w.afterBreak l first).buffer.toList =
      ink w.buffer.toList ++ if first then [] else ink l.separator := by
  have hnewline : ∀ v : Writer, ink v.newline.buffer.toList = ink v.buffer.toList := by
    intro v
    have hblank : ink ['\n'] = [] := by decide
    simp [newline, ink_append, hblank]
  rw [Writer.afterBreak, hnewline]
  split
  · exact (List.append_nil _).symm
  · rw [hw.ink_write, Layout.lineEnd, ink_trimEnd]

end Tidy

/-! ## Writers with the same ink -/

/-- Two tidy writers with the same ink. -/
structure SameInk (w w' : Writer) : Prop where
  tidy : w.Tidy ∧ w'.Tidy
  ink : ink w.buffer.toList = ink w'.buffer.toList

namespace SameInk

variable {w w' : Writer}

theorem empty : SameInk .empty .empty :=
  ⟨⟨tidy_empty, tidy_empty⟩, rfl⟩

theorem write (h : SameInk w w') {cs cs' : List Char} (hcs : Stencil.ink cs = Stencil.ink cs') :
    SameInk (w.write cs) (w'.write cs') where
  tidy := ⟨(w.extends_write cs).tidy h.tidy.1, (w'.extends_write cs').tidy h.tidy.2⟩
  ink := by rw [h.tidy.1.ink_write, h.tidy.2.ink_write, h.ink, hcs]

theorem beginExpression (h : SameInk w w') (anchored anchored' : Bool) :
    SameInk (w.beginExpression anchored) (w'.beginExpression anchored') :=
  ⟨⟨h.tidy.1.beginExpression anchored, h.tidy.2.beginExpression anchored'⟩, h.ink⟩

theorem endExpression (h : SameInk w w') : SameInk w.endExpression w'.endExpression :=
  ⟨⟨h.tidy.1.endExpression, h.tidy.2.endExpression⟩, h.ink⟩

/-- Before an element, it makes no difference whether the line is broken. -/
theorem beforeElement (h : SameInk w w') {l l' : Layout} (hl : l.separator = l'.separator)
    (first broken broken' : Bool) :
    SameInk (if broken then w.afterBreak l first else w.afterSeparator l first)
      (if broken' then w'.afterBreak l' first else w'.afterSeparator l' first) where
  tidy := by
    constructor
    · split
      · exact h.tidy.1.afterBreak l first
      · exact h.tidy.1.afterSeparator l first
    · split
      · exact h.tidy.2.afterBreak l' first
      · exact h.tidy.2.afterSeparator l' first
  ink := by
    have hside : ∀ {v : Writer} (hv : v.Tidy) (m : Layout) (b : Bool),
        Stencil.ink (if b then v.afterBreak m first else v.afterSeparator m first).buffer.toList =
          Stencil.ink v.buffer.toList ++ if first then [] else Stencil.ink m.separator := by
      intro v hv m b
      cases b with
      | true => exact hv.ink_afterBreak m first
      | false => exact hv.ink_afterSeparator m first
    rw [hside h.tidy.1, hside h.tidy.2, h.ink, hl]

/-- Elements that put down the same ink one by one do so together, at whatever widths their lines are broken;
and they fail together. -/
theorem writeElements {α β ε : Type} {l l' : Layout} (hl : l.separator = l'.separator)
    {cut : ε → Prop} {r : α → Writer → Except ε Writer} {r' : β → Writer → Except ε Writer}
    (hb : ∀ x, Balanced (r x)) (hb' : ∀ x, Balanced (r' x)) {xs : List α} {ys : List β}
    (hxs : List.Forall₂ (fun x y => ∀ w w', SameInk w w' → AgreeUnless cut SameInk (r x w) (r' y w')) xs ys)
    (first : Bool) (h : SameInk w w') :
    AgreeUnless cut SameInk (w.writeElements l r first xs) (w'.writeElements l' r' first ys) := by
  induction hxs generalizing first w w' with
  | nil => exact .ok h
  | @cons x y xs ys hxy _ ih =>
    obtain ⟨broken, hbroken⟩ := exists_writeElements_cons (l := l) (hb x) first xs h.tidy.1.valid
    obtain ⟨broken', hbroken'⟩ := exists_writeElements_cons (l := l') (hb' y) first ys h.tidy.2.valid
    rw [hbroken, hbroken']
    have hline := h.beforeElement hl first false false
    refine (hxy _ _ hline).bind fun _ _ _ => ?_
    exact (hxy _ _ (h.beforeElement hl first broken broken')).bind fun v v' hv => ih false hv

end SameInk
end Writer
end Stencil
