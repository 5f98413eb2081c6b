import Stencil.Proofs.Layout.Wrapping

/-!
# Anchored expressions

An anchored expression continues at the column at which it starts, and no expression within it continues further
left. So every line begun before it ends has that many spaces or tabs in front, unless it is empty (`PaddedFrom`;
inside of the expression, writing keeps it: `composed_paddedFrom`). Where a line is broken between its elements,
nothing but newlines and the two ends of expressions within it can come before the next character (`Silent`). All of
these continue at the same column while nothing stands on the line (`Silent.resting`), and there the character lands.
Main statement: `Writer.anchored_lines`.
-/

namespace Stencil.Writer

/-! ## Lines that begin with blanks -/

/-- The first line of a text is empty, or begins with so many spaces or tabs. -/
def Padded (column : Nat) (cs : List Char) : Prop :=
  ∀ c ∈ cs.head?, c ≠ '\n' → ∃ pad, pad <+: cs ∧ pad.length = column ∧ ∀ c ∈ pad, isInlineBlank c = true

theorem padded_nil {column : Nat} : Padded column [] :=
  fun _ h => nomatch h

theorem padded_newline {column : Nat} : Padded column ['\n'] :=
  fun _ h hc => absurd (Option.some.inj h).symm hc

/-- What follows a text that is not empty does not change how its first line begins. -/
theorem Padded.append {column : Nat} {cs : List Char} (h : Padded column cs) (hne : cs ≠ []) (ds : List Char) :
    Padded column (cs ++ ds) := by
  intro c hc hnewline
  rw [List.head?_append_of_ne_nil cs hne] at hc
  obtain ⟨pad, hpad, hlength, hblank⟩ := h c hc hnewline
  exact ⟨pad, hpad.trans (List.prefix_append cs ds), hlength, hblank⟩

/-- Every line begun from some offset on is padded, and if nothing stands on the current one, it is still to be
indented. -/
def PaddedFrom (column offset : Nat) (w : Writer) : Prop :=
  ∀ above rest, w.buffer.toList = above ++ '\n' :: rest → offset ≤ above.length →
    Padded column rest ∧ (rest = [] → w.pendingIndent = true)

section
variable {column offset : Nat} {w v : Writer}

theorem paddedFrom_of_size_le (h : w.buffer.size ≤ offset) : PaddedFrom column offset w := by
  intro above rest htext habove
  have hlength := congrArg List.length htext
  rw [Array.length_toList, List.length_append, List.length_cons] at hlength
  omega

/-- What has to be known of the text that is added: how it goes on with a pending line, and its own lines. -/
theorem PaddedFrom.extend (h : PaddedFrom column offset w) {added : List Char} (hne : added ≠ [])
    (hv : v.buffer.toList = w.buffer.toList ++ added) (hpending : w.pendingIndent = true → Padded column added)
    (hlines : ∀ above rest, added = above ++ '\n' :: rest →
      Padded column rest ∧ (rest = [] → v.pendingIndent = true)) : PaddedFrom column offset v := by
  intro above rest htext habove
  rw [hv, List.append_eq_append_iff] at htext
  rcases htext with ⟨between, -, hadded⟩ | ⟨line, hbuffer, hrest⟩
  · exact hlines between rest hadded
  · cases line with
    | nil => exact hlines [] rest hrest.symm
    | cons c line =>
      obtain ⟨rfl, rfl⟩ := List.cons.inj hrest
      obtain ⟨hpadded, hempty⟩ := h above line hbuffer habove
      refine ⟨?_, fun hnil => absurd (List.append_eq_nil_iff.1 hnil).2 hne⟩
      by_cases hline : line = []
      · subst hline
        exact hpending (hempty rfl)
      · exact hpadded.append hline added

/-- Inside an expression, which continues at the column or beyond. -/
structure Anchored (column : Nat) (w : Writer) : Prop where
  aligned : w.Aligned
  isOpen : w.indents ≠ []
  anchor : column ≤ w.anchor

namespace Anchored

theorem of_extends (hw : Anchored column w) (h : w.Extends v) (hv : v.Aligned) : Anchored column v := by
  refine ⟨hv, ?_, ?_⟩
  · rw [h.indents]
    exact hw.isOpen
  · rw [Writer.anchor, h.anchors]
    exact hw.anchor

theorem beginExpression (hw : Anchored column w) (anchored : Bool) :
    Anchored column (w.beginExpression anchored) := by
  refine ⟨hw.aligned.beginExpression anchored, List.cons_ne_nil _ _, ?_⟩
  change column ≤ if anchored then max w.nextColumn w.anchor else w.anchor
  split
  · exact Nat.le_trans hw.anchor (Nat.le_max_right _ _)
  · exact hw.anchor

theorem paddedFrom_writeChar (hw : Anchored column w) (h : PaddedFrom column offset w) (c : Char) :
    PaddedFrom column offset (w.writeChar c) := by
  by_cases hc : c = '\n'
  · subst hc
    have htext : (w.writeChar '\n').buffer.toList = w.buffer.toList ++ ['\n'] := Array.toList_push
    refine h.extend (List.cons_ne_nil _ _) htext (fun _ => padded_newline) fun above rest hadded => ?_
    obtain ⟨-, rfl⟩ : above = [] ∧ rest = [] := by simpa [List.singleton_eq_append_iff] using hadded
    refine ⟨padded_nil, fun _ => ?_⟩
    simpa [Writer.writeChar, Writer.newline] using hw.isOpen
  · have htext : (w.writeChar c).buffer.toList = w.buffer.toList ++ (w.lead ++ [c]) := by
      rw [writeChar_eq w hc, toList_buffer_resume]
    refine h.extend (by simp) htext (fun hpending _ _ _ => ?_) fun above rest hadded => ?_
    · have hlead : w.lead = w.margin := by rw [hw.aligned.lead_eq, if_pos hpending]
      have hcolumn : column ≤ w.margin.length := by
        rw [length_margin]
        exact Nat.le_trans hw.anchor (Nat.le_max_right _ _)
      refine ⟨w.margin.take column, ?_, List.length_take_of_le hcolumn, fun c hc => ?_⟩
      · rw [hlead]
        exact (List.take_prefix _ _).trans (List.prefix_append _ _)
      · exact hw.aligned.blank_margin c (List.mem_of_mem_take hc)
    · have hnewline : '\n' ∈ w.lead ++ [c] := by simp [hadded]
      simp [hw.aligned.newline_notMem_lead, Ne.symm hc] at hnewline

end Anchored

/-- Inside of an expression that is anchored, the lines stay padded. -/
theorem composed_paddedFrom (column offset : Nat) : Composed fun w v =>
    Anchored column w → Anchored column v ∧ (PaddedFrom column offset w → PaddedFrom column offset v) where
  refl _ hw := ⟨hw, id⟩
  trans _ _ h h' hw := ⟨(h' (h hw).1).1, (h' (h hw).1).2 ∘ (h hw).2⟩
  writeChar w c hw :=
    ⟨hw.of_extends (w.extends_writeChar c) (hw.aligned.writeChar c), fun h => hw.paddedFrom_writeChar h c⟩
  expression anchored hextends h hw := by
    obtain ⟨hv, hpadded⟩ := h (hw.beginExpression anchored)
    exact ⟨hw.of_extends (extends_endExpression _ anchored hextends) hv.aligned.endExpression, hpadded⟩

end

/-! ## What comes before the next character -/

/-- What can become of a writer on which nothing but newlines is written. The number is that of the expressions
that have begun and not ended. -/
inductive Silent (w : Writer) : Nat → Writer → Prop where
  | refl : Silent w 0 w
  | newline {depth : Nat} {v : Writer} : Silent w depth v → Silent w depth v.newline
  | beginExpression {depth : Nat} {v : Writer} (anchored : Bool) :
    Silent w depth v → Silent w (depth + 1) (v.beginExpression anchored)
  | endExpression {depth : Nat} {v : Writer} : Silent w (depth + 1) v → Silent w depth v.endExpression
  | fork {depth : Nat} {v : Writer} : Silent w depth v → Silent w depth v.fork

theorem Silent.trans {w u v : Writer} {m n : Nat} (h : Silent w m u) (h' : Silent u n v) : Silent w (m + n) v := by
  induction h' with
  | refl => exact h
  | newline _ ih => exact .newline ih
  | beginExpression anchored _ ih => exact .beginExpression anchored ih
  | endExpression _ ih => exact .endExpression ih
  | fork _ ih => exact .fork ih

/-- A writer and what has become of it: either nothing but newlines have been written, or these and then a first
other character, behind which the text goes on. -/
def Continues (w v : Writer) : Prop :=
  Silent w 0 v ∨ ∃ (depth : Nat) (u : Writer) (c : Char) (rest : List Char),
    Silent w depth u ∧ c ≠ '\n' ∧ v.buffer.toList = (u.writeChar c).buffer.toList ++ rest

theorem composed_continues : Composed Continues where
  refl _ := .inl .refl
  trans _ huv h h' := by
    rcases h with h | ⟨depth, u, c, rest, h, hc, hbuffer⟩
    · rcases h' with h' | ⟨depth, u, c, rest, h', hc, hbuffer⟩
      · exact .inl (h.trans h')
      · exact .inr ⟨0 + depth, u, c, rest, h.trans h', hc, hbuffer⟩
    · obtain ⟨added, hadded⟩ := huv.text
      refine .inr ⟨depth, u, c, rest ++ added.toList, h, hc, ?_⟩
      rw [hadded, Array.toList_append, hbuffer, List.append_assoc]
  writeChar w c := by
    by_cases hc : c = '\n'
    · subst hc
      exact .inl (.newline .refl)
    · exact .inr ⟨0, w, c, [], .refl, hc, (List.append_nil _).symm⟩
  expression {w _} anchored _ h := by
    have hbegin : Silent w 1 (w.beginExpression anchored) := .beginExpression anchored .refl
    rcases h with h | ⟨depth, u, c, rest, h, hc, hbuffer⟩
    · exact .inl (.endExpression (hbegin.trans h))
    · exact .inr ⟨1 + depth, u, c, rest, hbegin.trans h, hc, hbuffer⟩

/-- The columns at which the open expressions continue, innermost first. -/
def columns (w : Writer) : List Nat :=
  List.zipWith (fun indent anchor => max indent.length anchor) w.indents w.anchors

/-- Nothing stands on the current line, and so many expressions within an open one continue at a column, as does
that one. -/
structure Resting (column depth : Nat) (v : Writer) : Prop where
  aligned : v.Aligned
  pending : v.pendingIndent = true
  columns : ∀ n ≤ depth, v.columns[n]? = some column

namespace Resting

variable {column depth : Nat} {v : Writer}

theorem continuationColumn (hv : Resting column depth v) : v.continuationColumn = column := by
  have h := hv.columns 0 (Nat.zero_le _)
  rw [Writer.continuationColumn, Writer.indent, Writer.anchor]
  rw [Writer.columns] at h
  cases hi : v.indents with
  | nil => simp [hi] at h
  | cons indent outer =>
    cases ha : v.anchors with
    | nil => simp [hi, ha] at h
    | cons anchor outer => simpa [hi, ha] using h

theorem newline (hv : v.Aligned) (hcolumns : ∀ n ≤ depth, v.columns[n]? = some column) :
    Resting column depth v.newline := by
  refine ⟨hv.newline, ?_, hcolumns⟩
  have h := hcolumns 0 (Nat.zero_le _)
  cases hi : v.indents with
  | nil => simp [Writer.columns, hi] at h
  | cons indent outer => simp [Writer.newline, hi]

theorem afterBreak (hv : v.Aligned) (hcolumn : v.columns[0]? = some column) (l : Layout) (first : Bool) :
    Resting column 0 (v.afterBreak l first) := by
  refine newline ?_ fun n hn => ?_
  · split
    · exact hv
    · exact hv.write _
  · have hwrite : ∀ cs, (v.write cs).columns = v.columns := fun cs => by
      rw [Writer.columns, (v.extends_write cs).indents, (v.extends_write cs).anchors, Writer.columns]
    obtain rfl : n = 0 := Nat.le_zero.1 hn
    split
    · exact hcolumn
    · rw [hwrite, hcolumn]

theorem beginExpression (hv : Resting column depth v) (anchored : Bool) :
    Resting column (depth + 1) (v.beginExpression anchored) := by
  refine ⟨hv.aligned.beginExpression anchored, hv.pending, fun n hn => ?_⟩
  cases n with
  | zero =>
    have hcolumn := hv.continuationColumn
    have hnext : v.nextColumn = column := by rw [nextColumn, if_pos hv.pending, hcolumn]
    rw [Writer.continuationColumn] at hcolumn
    simp only [Writer.columns, Writer.beginExpression, hv.pending, hnext]
    cases anchored <;> simp <;> omega
  | succ n => exact hv.columns n (Nat.le_of_succ_le_succ hn)

theorem endExpression (hv : Resting column (depth + 1) v) : Resting column depth v.endExpression := by
  refine ⟨hv.aligned.endExpression, hv.pending, fun n hn => ?_⟩
  have htail : v.endExpression.columns = v.columns.tail := List.tail_zipWith.symm
  rw [htail, List.getElem?_tail]
  exact hv.columns (n + 1) (Nat.succ_le_succ hn)

theorem fork (hv : Resting column depth v) : Resting column depth v.fork :=
  ⟨hv.aligned.fork, hv.pending, hv.columns⟩

/-- The next character lands at the column, behind blanks. -/
theorem line_writeChar (hv : Resting column depth v) {c : Char} (hc : c ≠ '\n') :
    (v.writeChar c).line.toList = v.margin ++ [c] ∧ v.margin.length = column := by
  have hline : v.line.toList = [] := by
    have hsize := hv.aligned.column.symm.trans (hv.aligned.pending hv.pending)
    rwa [← Array.length_toList, List.length_eq_zero_iff] at hsize
  rw [writeChar_eq v hc, toList_line_resume hv.aligned.valid, hline, hv.aligned.lead_eq, if_pos hv.pending,
    length_margin]
  exact ⟨rfl, hv.continuationColumn⟩

end Resting

theorem Silent.resting {column depth : Nat} {w v : Writer} (h : Silent w depth v) (hw : Resting column 0 w) :
    Resting column depth v := by
  induction h with
  | refl => exact hw
  | newline _ ih => exact .newline ih.aligned ih.columns
  | beginExpression anchored _ ih => exact ih.beginExpression anchored
  | endExpression _ ih => exact ih.endExpression
  | fork _ ih => exact ih.fork

/-! ## Inside an anchored expression -/

/-- The writers inside of an expression but not of one within it: what balanced programs make of the writer on which
the expression begins, on itself or on forks. -/
inductive Inside (w : Writer) : Writer → Prop where
  | begin : Inside w w
  | run {ε : Type} {f : Writer → Except ε Writer} {u v : Writer} : Inside w u → Balanced f → f u = .ok v → Inside w v
  | fork {u : Writer} : Inside w u → Inside w u.fork

theorem Inside.kept {w u : Writer} (h : Inside w u) (hw : w.Aligned) :
    u.Aligned ∧ u.indents = w.indents ∧ u.anchors = w.anchors := by
  induction h with
  | begin => exact ⟨hw, rfl, rfl⟩
  | run _ hf hv ih =>
    have hextends := hf.extends hv
    exact ⟨hf.keeps kept_aligned ih.1 hv, hextends.indents.trans ih.2.1, hextends.anchors.trans ih.2.2⟩
  | fork _ ih => exact ⟨ih.1.fork, ih.2⟩

/-- An anchored expression continues where it begins. -/
theorem Aligned.columns_beginExpression {w : Writer} (hw : w.Aligned) :
    (w.beginExpression true).columns[0]? = some w.nextColumn := by
  have hanchor : max w.nextColumn w.anchor = w.nextColumn := by
    refine Nat.max_eq_left ?_
    exact Nat.le_trans (Nat.le_max_right _ _) hw.continuationColumn_le
  have hindent : (w.beginExpression true).indent.length ≤ w.nextColumn := by
    change List.length (if !w.pendingIndent && w.line.toList.all isInlineBlank then w.line.toList else w.indent) ≤ _
    split
    · next h =>
      have hpending : w.pendingIndent = false := by simpa using (Bool.and_eq_true_iff.1 h).1
      rw [nextColumn, if_neg (by simp [hpending]), hw.column, Array.length_toList]
    · exact Nat.le_trans (Nat.le_max_left _ _) hw.continuationColumn_le
  change some (max (w.beginExpression true).indent.length (max w.nextColumn w.anchor)) = _
  rw [hanchor, Nat.max_eq_right hindent]

section
variable {α ε : Type} {l : Layout} {render : α → Writer → Except ε Writer} {xs : List α} {first : Bool}
  {w z : Writer}

/-- Elements that have been written have been written at places. -/
theorem exists_placed (hb : ∀ x ∈ xs, Balanced (render x)) (hw : w.Valid)
    (h : writeElements l render first xs w = .ok z) :
    ∃ ps, placed l render first xs w = .ok ps ∧ ps.foldl (fun _ p => p.after) w = z := by
  rw [writeElements_eq_placed hb first hw] at h
  cases hps : placed l render first xs w with
  | error e =>
    rw [hps] at h
    cases h
  | ok ps =>
    rw [hps] at h
    exact ⟨ps, rfl, Except.ok.inj h⟩

/-- From the place of each element on, a relation that is composed of steps leads to the end of the elements. -/
theorem Composed.of_placed {R : Writer → Writer → Prop} (hR : Composed R) (hb : ∀ x ∈ xs, Balanced (render x))
    (hw : w.Valid) {ps : List (Placed α)} (h : placed l render first xs w = .ok ps) :
    ∀ p ∈ ps, R (p.start l) (ps.foldl (fun _ p => p.after) w) := by
  induction xs generalizing first w ps with
  | nil =>
    cases h
    exact List.forall_mem_nil _
  | cons x xs ih =>
    obtain ⟨hx, hxs⟩ := List.forall_mem_cons.1 hb
    obtain ⟨child, after, qs, -, hafter, hqs, rfl⟩ := exists_of_placed_cons h
    have hstart := (extends_beforeElement l first (l.breaks w child !xs.isEmpty) w).valid hw
    have hvalid := (hx.extends hafter).valid hstart
    have hothers : Writer.writeElements l render false xs after = .ok (qs.foldl (fun _ p => p.after) after) := by
      rw [writeElements_eq_placed hxs false hvalid, hqs]
      rfl
    have hrest := extends_writeElements (fun y hy _ _ h => (hxs y hy).extends h) false hothers
    refine List.forall_mem_cons.2 ⟨?_, ih hxs hvalid hqs⟩
    exact hR.trans (hx.extends hafter) hrest (hx.relates hR hstart hafter)
      (hR.writeElements hxs (fun y hy _ _ hv h => (hxs y hy).relates hR hv h) false hvalid hothers)

end

/-- **Anchors hold inside the expression.** An expression begins with an anchor, wherever a writer can be, and its
first character will stand at a column. Whatever is written before the expression ends, the lines begun in it that
are not empty begin with that many spaces or tabs. And when the expression breaks a line between its own elements,
then after newlines, and whatever expressions within it begin and end meanwhile, the next other character lands
exactly at that column; there is such a character, or nothing but newlines follow up to any later place in the
expression. -/
theorem anchored_lines {α ε : Type} {w : Writer} (hw : w.Reachable) :
    let e := w.beginExpression true
    let column := w.nextColumn
    (∀ (f : Writer → Except ε Writer) (v : Writer), Balanced f → f e = .ok v →
      ∀ above rest, v.buffer.toList = above ++ '\n' :: rest → w.buffer.size ≤ above.length → Padded column rest) ∧
    ∀ (l : Layout) (render : α → Writer → Except ε Writer) (xs : List α) (u z : Writer), e.Inside u →
      (∀ x ∈ xs, Balanced (render x)) → writeElements l render true xs u = .ok z →
      ∃ ps, placed l render true xs u = .ok ps ∧ ps.foldl (fun _ p => p.after) u = z ∧
        ∀ p ∈ ps, p.broken = true →
          let line := p.before.afterBreak l p.first
          render p.element line = .ok p.after ∧
          (∀ (depth : Nat) (v : Writer) (c : Char), line.Silent depth v → c ≠ '\n' →
            ∃ pad, pad.length = column ∧ (∀ c ∈ pad, isInlineBlank c = true) ∧
              (v.writeChar c).line.toList = pad ++ [c]) ∧
          ∀ (g : Writer → Except ε Writer) (v : Writer), Balanced g → g z = .ok v → line.Continues v := by
  intro e column
  have he : e.Aligned := hw.aligned.beginExpression true
  refine ⟨fun f v hf hv above rest htext habove => ?_, fun l render xs u z hu hb hz => ?_⟩
  · have hanchored : Anchored column e := ⟨he, List.cons_ne_nil _ _, Nat.le_max_left _ _⟩
    have hpadded := (hf.relates (composed_paddedFrom column w.buffer.size) he.valid hv hanchored).2
    exact (hpadded (paddedFrom_of_size_le (Nat.le_refl _)) above rest htext habove).1
  · obtain ⟨hualigned, huindents, huanchors⟩ := hu.kept he
    obtain ⟨ps, hps, rfl⟩ := exists_placed hb hualigned.valid hz
    refine ⟨ps, hps, rfl, fun p hp hbroken => ?_⟩
    obtain ⟨n, hn⟩ := List.mem_iff_getElem?.1 hp
    obtain ⟨-, -, -, hbefore, hwritten⟩ := getElem?_placed hb hualigned hps hn
    have hstart : p.start l = p.before.afterBreak l p.first := by rw [Placed.start, if_pos hbroken]
    have hcolumn : p.before.columns[0]? = some column := by
      rw [columns, hbefore.indents, hbefore.anchors, huindents, huanchors]
      exact hw.aligned.columns_beginExpression
    have hresting := Resting.afterBreak hwritten.aligned hcolumn l p.first
    refine ⟨hstart ▸ hwritten.after, fun depth v c hv hc => ?_, fun g v hg hv => ?_⟩
    · obtain ⟨hline, hmargin⟩ := (hv.resting hresting).line_writeChar hc
      exact ⟨v.margin, hmargin, (hv.resting hresting).aligned.blank_margin, hline⟩
    · have hextends := composed_extends.of_placed hb hualigned.valid hps p hp
      have hplace := composed_continues.of_placed hb hualigned.valid hps p hp
      have hvalid := hextends.valid (hstart ▸ hresting.aligned.valid)
      rw [← hstart]
      exact composed_continues.trans hextends (hg.extends hv) hplace (hg.relates composed_continues hvalid hv)

/-- Numbers on three lines: the one before which the line is broken has two lines. -/
theorem anchored_lines_numbers :
    let w := empty.write "x = ".toList
    let e := w.beginExpression true
    let l : Layout := { separator := ", ".toList, width := some 9 }
    let xs := ["11".toList, "2\n3".toList, "44".toList]
    w.Reachable ∧ w.nextColumn = 4 ∧ (∀ x ∈ xs, Balanced (writeText (ε := Unit) x)) ∧
    ∃ z ps, writeElements l writeText true xs e = (.ok z : Except Unit Writer) ∧
      z.text = "x = 11,\n    2\n    3, 44" ∧
      (∀ above rest, z.buffer.toList = above ++ '\n' :: rest → 4 ≤ above.length → Padded 4 rest) ∧
      placed l (writeText (ε := Unit)) true xs e = .ok ps ∧ ps.map (·.broken) = [false, true, false] ∧
      ∀ p ∈ ps, p.broken = true →
        let line := p.before.afterBreak l p.first
        line.Continues z ∧ ∃ pad, pad.length = 4 ∧ (∀ c ∈ pad, isInlineBlank c = true) ∧
          (line.writeChar '2').line.toList = pad ++ ['2'] := by
  intro w e l xs
  have hw : w.Reachable := .write _ .empty
  have hcolumn : w.nextColumn = 4 := by decide
  have hsize : w.buffer.size = 4 := by decide
  have hb : ∀ x ∈ xs, Balanced (writeText (ε := Unit) x) := fun x _ => .write x
  obtain ⟨hlines, helements⟩ := anchored_lines (α := List Char) (ε := Unit) hw
  have htext : (writeElements l (writeText (ε := Unit)) true xs e).map text =
      .ok "x = 11,\n    2\n    3, 44" := by decide
  have hbroken : (placed l (writeText (ε := Unit)) true xs e).map (·.map (·.broken)) =
      .ok [false, true, false] := by decide
  cases hz : writeElements l (writeText (ε := Unit)) true xs e with
  | error _ =>
    rw [hz] at htext
    cases htext
  | ok z =>
    rw [hz] at htext
    obtain ⟨ps, hps, -, hplaces⟩ := helements l writeText xs e z .begin hb hz
    rw [hps] at hbroken
    rw [hcolumn] at hlines hplaces
    rw [hsize] at hlines
    refine ⟨hw, hcolumn, hb, z, ps, rfl, Except.ok.inj htext, hlines _ z (.elements l hb) hz, hps,
      Except.ok.inj hbroken, fun p hp hbroken => ?_⟩
    obtain ⟨-, hlands, hcontinues⟩ := hplaces p hp hbroken
    exact ⟨hcontinues _ z .skip rfl, hlands 0 _ '2' .refl (by decide)⟩

end Stencil.Writer
