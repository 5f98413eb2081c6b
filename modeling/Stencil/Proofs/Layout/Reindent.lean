import Stencil.Proofs.Layout.Elements
import Stencil.Proofs.Layout.Line

/-!
# Writing behind an indentation

The same program is run on two writers, one at the start of a line and one behind spaces and tabs. Every
line that the second one begins while it writes gets these spaces and tabs as well, so its text is that of
the first one reindented (`reindent`). The relation `Shifted` is what holds between the two writers at any
time; writes and expressions keep it, and so do elements that are laid out without a width.
-/

namespace Stencil

/-- The text with `ws` after each newline that is followed by a character other than a newline. -/
def reindent (ws : List Char) : List Char → List Char
  | [] => []
  | c :: cs =>
    match cs with
    | [] => [c]
    | d :: _ => if c = '\n' ∧ d ≠ '\n' then c :: (ws ++ reindent ws cs) else c :: reindent ws cs

theorem reindent_nil (cs : List Char) : reindent [] cs = cs := by
  induction cs with
  | nil => rfl
  | cons c cs ih =>
    cases cs with
    | nil => rfl
    | cons d cs => rw [reindent, List.nil_append, ih, ite_self]

theorem reindent_concat (ws cs : List Char) (d : Char) :
    reindent ws (cs ++ [d]) =
      reindent ws cs ++ ((if cs.getLast? = some '\n' ∧ d ≠ '\n' then ws else []) ++ [d]) := by
  induction cs with
  | nil => simp [reindent]
  | cons c cs ih =>
    cases cs with
    | nil =>
      by_cases h : c = '\n' ∧ d ≠ '\n'
      · simp [reindent, h]
      · simp [reindent, h]
    | cons c' cs =>
      have hstep : ∀ es, reindent ws (c :: c' :: es) =
          c :: ((if c = '\n' ∧ c' ≠ '\n' then ws else []) ++ reindent ws (c' :: es)) := by
        intro es
        rw [reindent]
        split <;> rfl
      rw [List.cons_append] at ih
      rw [List.cons_append, List.cons_append, hstep, hstep, ih, List.getLast?_cons_cons]
      simp

/-- A line added to a text is indented if the text ends in a newline. -/
theorem reindent_append_line (ws cs : List Char) {line : List Char} (hne : line ≠ []) (hline : '\n' ∉ line) :
    reindent ws (cs ++ line) =
      reindent ws cs ++ ((if cs.getLast? = some '\n' then ws else []) ++ line) := by
  induction line generalizing cs with
  | nil => exact absurd rfl hne
  | cons d ds ih =>
    rw [List.mem_cons, not_or] at hline
    have hd : d ≠ '\n' := Ne.symm hline.1
    rw [← List.singleton_append, ← List.append_assoc]
    by_cases hds : ds = []
    · subst hds
      simp [reindent_concat, hd]
    · rw [ih _ hds hline.2, reindent_concat]
      simp [hd]

theorem reindent_append_newline (ws cs : List Char) :
    reindent ws (cs ++ ['\n']) = reindent ws cs ++ ['\n'] := by
  simp [reindent_concat]

namespace Writer

/-- `v` is where `w` is, but behind `ws` on the first line and on every line that was begun since. -/
structure Shifted (ws : List Char) (w v : Writer) : Prop where
  valid : w.Valid ∧ v.Valid
  buffer : v.buffer.toList = ws ++ reindent ws w.buffer.toList
  line : v.line.toList = (if w.pendingIndent then [] else ws) ++ w.line.toList
  column : v.column = (if w.pendingIndent then 0 else ws.length) + w.column
  pending : v.pendingIndent = w.pendingIndent
  /-- A line is pending just when a newline was written last. -/
  pending_iff : w.pendingIndent = true ↔ w.buffer.toList.getLast? = some '\n'
  start_of_pending : w.pendingIndent = true → w.line = #[] ∧ w.column = 0
  open_ne : w.indents ≠ []
  indents : v.indents = w.indents.map (ws ++ ·)
  blank : ∀ indent ∈ w.indents, ∀ c ∈ indent, isInlineBlank c = true
  anchors : List.Forall₂ (fun a b => b = ws.length + a ∨ (a = 0 ∧ b = 0)) w.anchors v.anchors

theorem not_newline_of_isInlineBlank {cs : List Char} (h : ∀ c ∈ cs, isInlineBlank c = true) :
    '\n' ∉ cs := by
  intro hmem
  exact absurd (h _ hmem) (by decide)

namespace Shifted

variable {ws : List Char} {w v : Writer}

theorem indent (h : Shifted ws w v) : v.indent = ws ++ w.indent := by
  have hne := h.open_ne
  rw [Writer.indent, Writer.indent, h.indents]
  cases hi : w.indents with
  | nil => exact absurd hi hne
  | cons i is => rfl

theorem anchor (h : Shifted ws w v) : v.anchor = ws.length + w.anchor ∨ (w.anchor = 0 ∧ v.anchor = 0) := by
  have ha := h.anchors
  rw [Writer.anchor, Writer.anchor]
  generalize w.anchors = as, v.anchors = bs at ha
  cases ha with
  | nil => exact .inr ⟨rfl, rfl⟩
  | cons hab _ => exact hab

theorem blank_indent (h : Shifted ws w v) : ∀ c ∈ w.indent, isInlineBlank c = true := by
  have hne := h.open_ne
  have hb := h.blank
  rw [Writer.indent]
  cases hi : w.indents with
  | nil => exact absurd hi hne
  | cons i is => exact hb i (by rw [hi]; exact List.mem_cons_self)

theorem nextColumn (h : Shifted ws w v) : v.nextColumn = ws.length + w.nextColumn := by
  unfold Writer.nextColumn
  rw [h.pending, h.column]
  split
  · rw [continuationColumn, continuationColumn, h.indent, List.length_append]
    rcases h.anchor with ha | ⟨ha, hb⟩
    · omega
    · omega
  · rfl

theorem newline (h : Shifted ws w v) : Shifted ws w.newline v.newline where
  valid := ⟨w.extends_newline.valid h.valid.1, v.extends_newline.valid h.valid.2⟩
  buffer := by simp [Writer.newline, h.buffer, reindent_append_newline]
  line := by
    have : w.newline.pendingIndent = true := by simpa [Writer.newline] using h.open_ne
    simp [this]
  column := by
    have : w.newline.pendingIndent = true := by simpa [Writer.newline] using h.open_ne
    rw [if_pos this]
    rfl
  pending := by simp [Writer.newline, h.indents]
  pending_iff := by simpa [Writer.newline] using h.open_ne
  start_of_pending _ := ⟨w.line_newline, rfl⟩
  open_ne := h.open_ne
  indents := h.indents
  blank := h.blank
  anchors := h.anchors

/-- Text without a newline goes on the current line; if the line is pending, the second writer puts `ws` in
front of it. -/
theorem resume (h : Shifted ws w v) {cs : List Char} (hne : cs ≠ []) (hcs : '\n' ∉ cs) :
    Shifted ws (w.resume cs) (v.resume ((if w.pendingIndent then ws else []) ++ cs)) where
  valid := ⟨valid_resume h.valid.1 _, valid_resume h.valid.2 _⟩
  buffer := by
    rw [toList_buffer_resume, toList_buffer_resume, reindent_append_line ws _ hne hcs, h.buffer,
      List.append_assoc]
    simp only [h.pending_iff]
  line := by
    have hline := h.line
    rw [toList_line_resume h.valid.1, toList_line_resume h.valid.2, hline]
    cases hp : w.pendingIndent with
    | true => simp [(h.start_of_pending hp).1, Writer.resume, Writer.append]
    | false => simp [Writer.resume, Writer.append]
  column := by
    have hcolumn := h.column
    simp only [Writer.resume, Writer.append, List.length_append, Bool.false_eq_true, if_false]
    split at hcolumn
    · rw [if_pos ‹_›]
      omega
    · rw [if_neg ‹_›, List.length_nil]
      omega
  pending := rfl
  pending_iff := by
    have hlast : (w.buffer.toList ++ cs).getLast? ≠ some '\n' := by
      rw [List.getLast?_append_of_ne_nil _ hne]
      exact fun hl => hcs (List.mem_of_getLast? hl)
    rw [toList_buffer_resume]
    exact iff_of_false (fun h => nomatch h) hlast
  start_of_pending hp := nomatch hp
  open_ne := h.open_ne
  indents := h.indents
  blank := h.blank
  anchors := h.anchors

/-- The second writer indents a pending line by `ws` and then like the first one, up to an anchor that stands
`ws` further right. -/
theorem lead (h : Shifted ws w v) : v.lead = (if w.pendingIndent then ws else []) ++ w.lead := by
  unfold Writer.lead
  rw [h.pending, h.indent, h.column]
  split
  · rw [List.append_assoc, List.length_append, (h.start_of_pending ‹_›).2]
    rcases h.anchor with ha | ⟨ha, hb⟩
    · rw [ha, show ws.length + w.anchor - (0 + 0 + (ws.length + w.indent.length)) =
        w.anchor - (0 + w.indent.length) by omega]
    · rw [ha, hb]
      simp
  · rfl

theorem writeChar (h : Shifted ws w v) (c : Char) : Shifted ws (w.writeChar c) (v.writeChar c) := by
  by_cases hc : c = '\n'
  · subst hc
    exact h.newline
  · rw [writeChar_eq w hc, writeChar_eq v hc, h.lead, List.append_assoc]
    refine h.resume (by simp) ?_
    have hindent := not_newline_of_isInlineBlank h.blank_indent
    rw [Writer.lead]
    split
    · simp [hindent, Ne.symm hc]
    · simp [Ne.symm hc]

theorem write (h : Shifted ws w v) (cs : List Char) : Shifted ws (w.write cs) (v.write cs) := by
  induction cs generalizing w v with
  | nil => exact h
  | cons c cs ih => exact ih (h.writeChar c)

theorem beginExpression (h : Shifted ws w v) (hws : ∀ c ∈ ws, isInlineBlank c = true) (anchored : Bool) :
    Shifted ws (w.beginExpression anchored) (v.beginExpression anchored) where
  valid := h.valid
  buffer := h.buffer
  line := h.line
  column := h.column
  pending := h.pending
  pending_iff := h.pending_iff
  start_of_pending := h.start_of_pending
  open_ne := by simp [Writer.beginExpression]
  indents := by
    have hall : ws.all isInlineBlank = true := List.all_eq_true.2 hws
    simp only [Writer.beginExpression, h.line, h.indents, h.indent, h.pending, List.map_cons]
    cases hp : w.pendingIndent with
    | true => simp
    | false =>
      simp only [Bool.false_eq_true, if_false, List.all_append, hall, Bool.true_and]
      split <;> rfl
  blank := by
    intro indent hmem
    rcases List.mem_cons.1 hmem with rfl | hmem
    · split
      · rename_i hb
        rw [Bool.and_eq_true, List.all_eq_true] at hb
        exact hb.2
      · exact h.blank_indent
    · exact h.blank indent hmem
  anchors := by
    refine .cons ?_ h.anchors
    have hnext := h.nextColumn
    rcases h.anchor with ha | ha
    · split <;> omega
    · split <;> omega

/-- An expression at the start of the output, and the same expression behind `ws`. -/
theorem start (hws : ∀ c ∈ ws, isInlineBlank c = true) (anchored : Bool) :
    Shifted ws (empty.beginExpression anchored) ((empty.write ws).beginExpression anchored) := by
  have hw : empty.beginExpression anchored = { indents := [[]], anchors := [0] } := by
    cases anchored <;> rfl
  have hv : (empty.write ws).beginExpression anchored =
      { buffer := ws.toArray, column := ws.length, indents := [ws]
        anchors := [if anchored then ws.length else 0] } := by
    have hall : ws.all isInlineBlank = true := List.all_eq_true.2 hws
    have hbuffer : (#[] : Array Char) ++ ws = ws.toArray := Array.ext' Array.toList_appendList
    rw [write_eq_append (w := empty) rfl (not_newline_of_isInlineBlank hws)]
    simp [Writer.beginExpression, append, empty, Writer.line, hbuffer, hall, Writer.nextColumn, Writer.anchor]
  rw [hw, hv]
  exact {
    valid := ⟨Nat.zero_le _, Nat.zero_le _⟩
    buffer := by simp [reindent]
    line := by simp [toList_line]
    column := by simp
    pending := rfl
    pending_iff := by simp
    start_of_pending := by simp
    open_ne := by simp
    indents := by simp
    blank := by simp
    anchors := by cases anchored <;> simp }

theorem endExpression {w' v' : Writer} {anchored : Bool} (h : Shifted ws w v) (h' : Shifted ws w' v')
    (hw' : (w.beginExpression anchored).Extends w') : Shifted ws w'.endExpression v'.endExpression where
  valid := h'.valid
  buffer := h'.buffer
  line := h'.line
  column := h'.column
  pending := h'.pending
  pending_iff := h'.pending_iff
  start_of_pending := h'.start_of_pending
  open_ne := by
    rw [show w'.endExpression.indents = w.indents from (w.extends_endExpression anchored hw').indents]
    exact h.open_ne
  indents := by simp [Writer.endExpression, h'.indents]
  blank := fun indent hmem => h'.blank indent (List.mem_of_mem_tail hmem)
  anchors := by
    have := h'.anchors
    simp only [Writer.endExpression]
    generalize w'.anchors = as, v'.anchors = bs at this
    cases this with
    | nil => exact .nil
    | cons _ htail => exact htail

theorem afterSeparator (h : Shifted ws w v) (l : Layout) (first : Bool) :
    Shifted ws (w.afterSeparator l first) (v.afterSeparator l first) := by
  unfold Writer.afterSeparator
  split
  · exact h
  · exact h.write l.separator

/-- Elements that keep the relation one by one keep it together. An element has to do so only if those
before it can be written. -/
theorem writeElements {α ε : Type} {l : Layout} (hl : l.width = none) {render : α → Writer → Except ε Writer}
    (hb : ∀ x, Balanced (render x)) {xs : List α}
    (hr : ∀ before x after, xs = before ++ x :: after → (∀ y ∈ before, ∃ u u', render y u = .ok u') →
      ∀ w v, Shifted ws w v → Agree (Shifted ws) (render x w) (render x v))
    (first : Bool) (h : Shifted ws w v) :
    Agree (Shifted ws) (writeElements l render first xs w) (writeElements l render first xs v) := by
  induction xs generalizing first w v with
  | nil => exact .ok h
  | cons x xs ih =>
    rw [writeElements_cons_of_width_eq_none hl (hb x) first xs h.valid.1,
      writeElements_cons_of_width_eq_none hl (hb x) first xs h.valid.2]
    have hx := hr [] x xs rfl (by simp) _ _ (h.afterSeparator l first)
    refine hx.bind_of_ok fun w' v' hw' h' => ih ?_ false h'
    intro before y after hxs hbefore
    refine hr (x :: before) y after (by rw [hxs]; rfl) ?_
    intro z hz
    rcases List.mem_cons.1 hz with rfl | hz
    · exact ⟨_, _, hw'⟩
    · exact hbefore z hz

end Shifted
end Writer
end Stencil
