import Stencil.Proofs.Layout.Filling
import Stencil.Proofs.Layout.Reindent

/-!
# The text of an expression

A text goes behind the lead of a pending line, and each of its own newlines is followed by the margin of the
innermost expression, if the line is not left empty (`Writer.Aligned.toList_buffer_write`). A text without
newlines never gets to the margin, and an expression on a pending line has the lead that the line has without it,
so for such a text it makes no difference whether it stands in an expression of its own
(`Writer.Aligned.write_inside`). Without a width, elements that are texts are their text with the separators
(`Writer.writeElements_texts`).
-/

namespace Stencil

/-- Nothing between texts is only the texts. -/
theorem intercalate_nil_separator {α : Type} (texts : List (List α)) : [].intercalate texts = texts.flatten := by
  induction texts with
  | nil => rfl
  | cons text texts ih =>
    cases texts with
    | nil => simp
    | cons text' texts =>
      rw [List.intercalate_cons_cons, List.append_nil, ih]
      rfl

namespace Writer

variable {w : Writer}

/-- The characters that writing a text appends: the lead of the line comes before a first character that is no
newline, and the margin after each newline that another character follows. -/
def indented (w : Writer) : List Char → List Char
  | [] => []
  | ch :: cs => (if ch = '\n' then [] else w.lead) ++ reindent w.margin (ch :: cs)

theorem indented_of_newline_notMem (w : Writer) {cs : List Char} (hne : cs ≠ []) (hcs : '\n' ∉ cs) :
    w.indented cs = w.lead ++ cs := by
  have hself : reindent w.margin cs = cs := by
    simpa [reindent] using reindent_append_line w.margin [] hne hcs
  cases cs with
  | nil => exact absurd rfl hne
  | cons ch cs =>
    have hch : ch ≠ '\n' := fun h => hcs (h ▸ List.mem_cons_self)
    rw [indented, if_neg hch, hself]

namespace Aligned

variable (hw : w.Aligned)
include hw

/-- What is appended where a text is written. -/
theorem toList_buffer_write (cs : List Char) :
    (w.write cs).buffer.toList = w.buffer.toList ++ w.indented cs := by
  induction cs generalizing w with
  | nil => exact (List.append_nil _).symm
  | cons ch cs ih =>
    have hstep : (w.write (ch :: cs)).buffer.toList = (w.writeChar ch).buffer.toList ++ (w.writeChar ch).indented cs :=
      ih (hw.writeChar ch)
    rw [hstep, indented]
    by_cases hch : ch = '\n'
    · subst hch
      have hnewline : w.writeChar '\n' = w.newline := rfl
      have hbuffer : w.newline.buffer.toList = w.buffer.toList ++ ['\n'] := by simp [Writer.newline]
      have hmargin : w.newline.margin = w.margin := rfl
      rw [hnewline, hbuffer, if_pos rfl, List.nil_append, List.append_assoc]
      cases cs with
      | nil => rfl
      | cons d ds =>
        rw [indented, hw.lead_newline, hmargin, reindent]
        by_cases hd : d = '\n'
        · simp [hd]
        · simp [hd]
    · have hmargin : (w.resume (w.lead ++ [ch])).margin = w.margin := rfl
      rw [writeChar_eq w hch, toList_buffer_resume, if_neg hch]
      cases cs with
      | nil => simp [indented, reindent]
      | cons d ds => simp [indented, lead_resume, hmargin, reindent, hch]

/-- An expression on a pending line has the lead of the line. -/
theorem lead_beginExpression (anchored : Bool) : (w.beginExpression anchored).lead = w.lead := by
  rw [(hw.beginExpression anchored).lead_eq, hw.lead_eq]
  have hpending : (w.beginExpression anchored).pendingIndent = w.pendingIndent := rfl
  rw [hpending]
  cases hp : w.pendingIndent with
  | false => rfl
  | true =>
    have hindent : (w.beginExpression anchored).indent = w.indent := by
      simp [Writer.beginExpression, Writer.indent, hp]
    have hanchor : (w.beginExpression anchored).anchor - w.indent.length = w.anchor - w.indent.length := by
      simp only [Writer.beginExpression, Writer.anchor, List.headD_cons, nextColumn, hp, if_true, continuationColumn]
      split <;> omega
    rw [if_pos rfl, if_pos rfl, margin, margin, hindent, hanchor]

/-- A text without newlines is written inside an expression as it is outside of it. -/
theorem write_inside (anchored : Bool) {cs : List Char} (hcs : '\n' ∉ cs) :
    ((w.beginExpression anchored).write cs).endExpression = w.write cs := by
  by_cases hne : cs = []
  · rw [hne]
    rfl
  · rw [write_eq_resume _ hne hcs, write_eq_resume _ hne hcs, hw.lead_beginExpression]
    rfl

end Aligned

/-- Without a width, elements that are texts are written as one text, with the separator between them; the first
one that is an error instead is the error of all. -/
theorem writeElements_texts {α ε : Type} {l : Layout} (hl : l.width = none) {render : α → Writer → Except ε Writer}
    {text : α → Except ε (List Char)} (hrender : ∀ x w, render x w = (text x).map w.write) (xs : List α)
    (hw : w.Valid) (row : List (List Char)) :
    writeElements l render row.isEmpty xs (w.write (l.separator.intercalate row)) =
      (xs.mapM text).map fun texts => w.write (l.separator.intercalate (row ++ texts)) := by
  induction xs generalizing row with
  | nil =>
    exact congrArg (fun texts => (.ok (w.write (l.separator.intercalate texts)) : Except ε Writer))
      (List.append_nil row).symm
  | cons x xs ih =>
    have hbalanced : Balanced (render x) := by
      rw [show render x = fun w => (text x).map w.write from funext (hrender x)]
      cases text x with
      | error e => exact .fail e
      | ok cs => exact .write cs
    rw [writeElements_cons_of_width_eq_none hl hbalanced _ xs ((w.extends_write _).valid hw), hrender, List.mapM_cons]
    cases text x with
    | error e => rfl
    | ok cs =>
      have hwritten : ((w.write (l.separator.intercalate row)).afterSeparator l row.isEmpty).write cs =
          w.write (l.separator.intercalate (row ++ [cs])) := by
        rw [write_afterSeparator, ← write_append, Layout.intercalate_concat]
      have hrest := ih (row ++ [cs])
      rw [show (row ++ [cs]).isEmpty = false by simp] at hrest
      simp only [bind, Except.bind, Except.map, hwritten]
      rw [hrest]
      cases xs.mapM text with
      | error e => rfl
      | ok texts => simp [Except.map, pure, Except.pure]

end Writer
end Stencil
