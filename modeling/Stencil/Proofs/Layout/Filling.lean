import Mathlib.Data.List.TakeWhile
import Stencil.Proofs.Layout.Columns

/-!
# Filling lines

Elements without newlines fill lines from left to right. A layout cuts the list of elements into rows
(`Layout.rows`): an element goes on the row as long as its line stays within the width, and begins a new row
where it does not. The rows determine the text (`Layout.lines`): the separator stands between the elements of
a row, its rest at the end of a broken line, and the margin before every further line. Main statement:
elements that are written under a width stand in these rows, and no line with two elements passes the width
(`Writer.writeElements_fills`).
-/

namespace Stencil

namespace Layout

variable (l : Layout)

/-- What an element adds to a row of elements. -/
def added (row : List (List Char)) (x : List Char) : List Char :=
  if row.isEmpty then x else l.separator ++ x

/-- What a row adds to its line when the line is broken. -/
def ending (row : List (List Char)) : List Char :=
  if row.isEmpty then [] else l.lineEnd

/-- What has to find room behind an element when these follow it. -/
def reserve (xs : List (List Char)) : List Char :=
  if xs.isEmpty then [] else l.lineEnd

/-- The rows in which elements are laid out, from a line with a row on it that was begun. An element begins a
row where the line has got beyond the margin and would pass the width with it. -/
def rows (width : Nat) (margin line : List Char) (row : List (List Char)) :
    List (List Char) → List (List (List Char))
  | [] => [row]
  | x :: xs =>
    if margin.length < line.length ∧ width < (line ++ l.added row x ++ l.reserve xs).length then
      row :: rows width margin (margin ++ x) [x] xs
    else rows width margin (line ++ l.added row x) (row ++ [x]) xs

/-- The lines of rows: the first begins with `start`, the others with the margin. -/
def lines (margin : List Char) : (start : List Char) → List (List (List Char)) → List (List Char)
  | _, [] => []
  | start, [row] => [start ++ l.separator.intercalate row]
  | start, row :: row' :: rows =>
    (start ++ l.separator.intercalate row ++ l.ending row) :: lines margin margin (row' :: rows)

/-! ## Rows -/

variable {l} {width : Nat} {margin : List Char}

theorem rows_ne_nil (line : List Char) (row xs : List (List Char)) : l.rows width margin line row xs ≠ [] := by
  induction xs generalizing line row with
  | nil => simp [rows]
  | cons x xs ih =>
    rw [rows]
    split
    · simp
    · exact ih _ _

theorem lines_cons (start : List Char) (row : List (List Char)) {rows : List (List (List Char))}
    (h : rows ≠ []) : l.lines margin start (row :: rows) =
      (start ++ l.separator.intercalate row ++ l.ending row) :: l.lines margin margin rows := by
  cases rows with
  | nil => exact absurd rfl h
  | cons row' rows => rfl

theorem lines_ne_nil (start : List Char) {rows : List (List (List Char))} (h : rows ≠ []) :
    l.lines margin start rows ≠ [] := by
  match rows with
  | [] => exact absurd rfl h
  | [row] => simp [lines]
  | row :: row' :: rows => simp [lines]

theorem intercalate_concat (row : List (List Char)) (x : List Char) :
    l.separator.intercalate (row ++ [x]) = l.separator.intercalate row ++ l.added row x := by
  induction row with
  | nil => simp [added]
  | cons y row ih =>
    cases row with
    | nil => simp [added, List.intercalate_cons_cons]
    | cons z row =>
      simp only [List.cons_append, List.intercalate_cons_cons] at ih ⊢
      rw [ih]
      simp [added]

theorem notMem_intercalate {c : Char} (hc : c ∉ l.separator) {row : List (List Char)}
    (hrow : ∀ x ∈ row, c ∉ x) : c ∉ l.separator.intercalate row := by
  induction row with
  | nil => exact List.not_mem_nil
  | cons x row ih =>
    obtain ⟨hx, hrow⟩ := List.forall_mem_cons.1 hrow
    cases row with
    | nil => rwa [List.intercalate_singleton]
    | cons y row =>
      rw [List.intercalate_cons_cons, List.mem_append, List.mem_append, not_or, not_or]
      exact ⟨⟨hx, hc⟩, ih hrow⟩

/-- Every element stands in a row, in the order of the elements. -/
theorem flatten_rows (line : List Char) (row xs : List (List Char)) :
    (l.rows width margin line row xs).flatten = row ++ xs := by
  induction xs generalizing line row with
  | nil => simp [rows]
  | cons x xs ih =>
    rw [rows]
    split
    · rw [List.flatten_cons, ih, List.singleton_append]
    · rw [ih, List.append_assoc, List.singleton_append]

/-- The lines of rows are lines: there is no newline in them. -/
theorem newline_notMem_lines (hseparator : '\n' ∉ l.separator) (hend : '\n' ∉ l.lineEnd)
    (hmargin : '\n' ∉ margin) {start : List Char} (hstart : '\n' ∉ start) {rows : List (List (List Char))}
    (hrows : ∀ x ∈ rows.flatten, '\n' ∉ x) : ∀ line ∈ l.lines margin start rows, '\n' ∉ line := by
  induction rows generalizing start with
  | nil => simp [lines]
  | cons row rows ih =>
    rw [List.flatten_cons, List.forall_mem_append] at hrows
    have hrow : '\n' ∉ start ++ l.separator.intercalate row := by
      rw [List.mem_append, not_or]
      exact ⟨hstart, notMem_intercalate hseparator hrows.1⟩
    cases rows with
    | nil => simpa [lines] using hrow
    | cons row' rows =>
      refine List.forall_mem_cons.2 ⟨?_, ih hmargin hrows.2⟩
      rw [List.mem_append, not_or, ending]
      refine ⟨hrow, ?_⟩
      split
      · exact List.not_mem_nil
      · exact hend

/-- The rows keep to the width from a line on that is within the width if its row has two elements. -/
theorem length_lines_le (start : List Char) (row : List (List Char)) {xs : List (List Char)} (hxs : ∀ x ∈ xs, x ≠ [])
    (hmargin : if row.isEmpty then margin.length ≤ start.length
      else margin.length < (start ++ l.separator.intercalate row).length)
    (hrow : 2 ≤ row.length → (start ++ l.separator.intercalate row ++ l.reserve xs).length ≤ width) :
    List.Forall₂ (fun row line => 2 ≤ row.length → line.length ≤ width)
      (l.rows width margin (start ++ l.separator.intercalate row) row xs)
      (l.lines margin start (l.rows width margin (start ++ l.separator.intercalate row) row xs)) := by
  induction xs generalizing start row with
  | nil => exact .cons (by simpa [reserve] using hrow) .nil
  | cons x xs ih =>
    obtain ⟨hx, hxs⟩ := List.forall_mem_cons.1 hxs
    have hlength : 0 < x.length := List.length_pos_iff.2 hx
    rw [rows]
    split
    · -- The line is broken: its row is done, and `x` begins the next one.
      rw [lines_cons _ _ (rows_ne_nil _ _ _)]
      refine .cons (fun htwo => ?_) ?_
      · have hne : row ≠ [] := by
          rintro rfl
          simp at htwo
        simpa [ending, reserve, hne] using hrow htwo
      · have hnext := ih margin [x] hxs (by simp [hlength]) (by simp)
        simpa using hnext
    · next hbreak =>
      have hnext := ih start (row ++ [x]) hxs
      rw [intercalate_concat, ← List.append_assoc] at hnext
      refine hnext ?_ fun htwo => ?_
      · have hadded : 0 < (l.added row x).length := by
          unfold added
          split
          · exact hlength
          · rw [List.length_append]
            omega
        rw [if_neg (by simp), List.length_append]
        split at hmargin
        · simp only [List.length_append]
          omega
        · omega
      · have hne : row.isEmpty = false := by
          cases row with
          | nil => simp at htwo
          | cons y row => rfl
        rw [hne] at hmargin
        exact Nat.le_of_not_lt fun hwide => hbreak ⟨hmargin, hwide⟩

end Layout

namespace Writer

variable {ε : Type} {l : Layout} {width : Nat} {w : Writer}

/-! ## Elements in rows -/

theorem mem_of_mem_trimEnd {c : Char} {cs : List Char} (h : c ∈ trimEnd cs) : c ∈ cs := by
  rw [trimEnd, List.mem_reverse] at h
  exact List.mem_reverse.1 ((List.dropWhile_sublist _).subset h)

theorem write_append (w : Writer) (cs ds : List Char) : w.write (cs ++ ds) = (w.write cs).write ds :=
  List.foldl_append

theorem write_afterSeparator (w : Writer) (row : List (List Char)) (x : List Char) :
    (w.afterSeparator l row.isEmpty).write x = w.write (l.added row x) := by
  unfold afterSeparator Layout.added
  split
  · rfl
  · exact (w.write_append _ _).symm

theorem margin_write (w : Writer) (cs : List Char) : (w.write cs).margin = w.margin := by
  have h := w.extends_write cs
  simp only [margin, indent, anchor, h.indents, h.anchors]

namespace Aligned

variable (hw : w.Aligned)
include hw

/-- The line of an element is as wide as it gets when the element is written on it. -/
theorem firstLineWidth_write_fork {cs : List Char} (hne : cs ≠ []) (hcs : '\n' ∉ cs) :
    (w.fork.write cs).firstLineWidth = (w.line.toList ++ w.lead ++ cs).length := by
  have hbuffer : (w.fork.write cs).buffer.toList = w.line.toList ++ w.lead ++ cs := by
    rw [write_eq_resume _ hne hcs, toList_buffer_resume, List.append_assoc]
    rfl
  have hline : ∀ c ∈ w.line.toList ++ w.lead ++ cs, decide (c ≠ '\n') = true := by
    intro c hc
    refine decide_eq_true fun hnewline => ?_
    subst hnewline
    simp [hw.line, hw.newline_notMem_lead, hcs] at hc
  rw [firstLineWidth, hbuffer, List.takeWhile_eq_self_iff.2 hline]

/-- A line is broken where it has got beyond the margin and would pass the width. -/
theorem breaks_iff (hwidth : l.width = some width) {cs : List Char} (hne : cs ≠ []) (hcs : '\n' ∉ cs)
    (xs : List (List Char)) :
    l.breaks w (w.fork.write cs) (!xs.isEmpty) = true ↔
      w.margin.length < (w.line.toList ++ w.lead).length ∧
        width < (w.line.toList ++ w.lead ++ cs ++ l.reserve xs).length := by
  have hreserve : (w.line.toList ++ w.lead ++ cs ++ l.reserve xs).length =
      (w.line.toList ++ w.lead ++ cs).length + if !xs.isEmpty then l.lineEnd.length else 0 := by
    rw [List.length_append]
    cases xs <;> rfl
  rw [Layout.breaks, hwidth, hw.firstLineWidth_write_fork hne hcs, length_margin, hw.length_line_lead, hreserve]
  simp only [Bool.and_eq_true, decide_eq_true_eq]

/-- A line that has got beyond the margin is not pending. -/
theorem lead_eq_nil_of_lt (h : w.margin.length < (w.line.toList ++ w.lead).length) : w.lead = [] := by
  rw [hw.lead_eq]
  split
  · next hp =>
    rw [hw.length_line_lead, length_margin, nextColumn, if_pos hp] at h
    exact absurd h (Nat.lt_irrefl _)
  · rfl

/-- The line after a broken one begins with the margin. -/
theorem afterBreak (first : Bool) : (w.afterBreak l first).Aligned ∧ (w.afterBreak l first).lead = w.margin ∧
    (w.afterBreak l first).margin = w.margin := by
  unfold Writer.afterBreak
  split
  · exact ⟨hw.newline, hw.lead_newline, rfl⟩
  · have hwritten := hw.write l.lineEnd
    exact ⟨hwritten.newline, hwritten.lead_newline.trans (w.margin_write _), w.margin_write _⟩

omit hw in
/-- A line that is broken after a row ends with what the row adds. -/
theorem above_afterBreak (hseparator : '\n' ∉ l.separator) (row : List (List Char)) (hlead : w.lead = []) :
    (w.afterBreak l row.isEmpty).above = w.buffer.toList ++ l.ending row ++ ['\n'] := by
  have hend : '\n' ∉ l.lineEnd := fun h => hseparator (mem_of_mem_trimEnd h)
  rw [Writer.afterBreak, above_newline, Layout.ending]
  split
  · rw [List.append_nil]
  · by_cases hne : l.lineEnd = []
    · rw [hne, Writer.write, List.foldl_nil, List.append_nil]
    · rw [write_eq_resume w hne hend, toList_buffer_resume, hlead, List.nil_append]

/-- The elements from a line on that begins with `start` and has a row on it. -/
theorem writeElements_rows (hwidth : l.width = some width) (hseparator : '\n' ∉ l.separator)
    {xs : List (List Char)} (hxs : ∀ x ∈ xs, x ≠ [] ∧ '\n' ∉ x) (start : List Char) (row : List (List Char))
    (hline : (w.line.toList ++ if xs.isEmpty then [] else w.lead) = start ++ l.separator.intercalate row) :
    ∃ w', writeElements l (fun cs w => (.ok (w.write cs) : Except ε Writer)) row.isEmpty xs w = .ok w' ∧
      w'.buffer.toList = w.above ++ ['\n'].intercalate
        (l.lines w.margin start (l.rows width w.margin (start ++ l.separator.intercalate row) row xs)) := by
  induction xs generalizing w start row with
  | nil =>
    refine ⟨w, rfl, ?_⟩
    have hline : w.line.toList = start ++ l.separator.intercalate row := by simpa using hline
    rw [Layout.rows, Layout.lines, List.intercalate_singleton, ← hline, above_append_line]
  | cons x xs ih =>
    obtain ⟨⟨hx, hxn⟩, hxs⟩ := List.forall_mem_cons.1 hxs
    have hline : w.line.toList ++ w.lead = start ++ l.separator.intercalate row := by simpa using hline
    have hadded : l.added row x ≠ [] ∧ '\n' ∉ l.added row x := by
      unfold Layout.added
      split
      · exact ⟨hx, hxn⟩
      · simp [hx, hxn, hseparator]
    have hbreaks := hw.breaks_iff hwidth hadded.1 hadded.2 xs
    rw [hline, ← write_afterSeparator] at hbreaks
    have hstep : writeElements l (fun cs w => (.ok (w.write cs) : Except ε Writer)) row.isEmpty (x :: xs) w =
        writeElements l (fun cs w => .ok (w.write cs)) false xs
          ((if l.breaks w ((w.fork.afterSeparator l row.isEmpty).write x) (!xs.isEmpty)
            then w.afterBreak l row.isEmpty else w.afterSeparator l row.isEmpty).write x) :=
      writeElements_cons (.write x) row.isEmpty xs hw.valid
    rw [hstep, Layout.rows]
    by_cases hbreak : w.margin.length < (start ++ l.separator.intercalate row).length ∧
        width < (start ++ l.separator.intercalate row ++ l.added row x ++ l.reserve xs).length
    · -- The line is broken, and `x` begins the next row, behind the margin.
      have hlead : w.lead = [] := hw.lead_eq_nil_of_lt (hline ▸ hbreak.1)
      obtain ⟨haligned, hnext, hmargin⟩ := hw.afterBreak (l := l) row.isEmpty
      have hwritten := write_eq_resume (w.afterBreak l row.isEmpty) hx hxn
      rw [hnext] at hwritten
      obtain ⟨w', hw', hbuffer⟩ := ih (haligned.write x) hxs w.margin [x] (by
        rw [hwritten, toList_line_resume haligned.valid, lead_resume, ite_self]
        simp [Writer.afterBreak])
      rw [if_pos (hbreaks.2 hbreak), if_pos hbreak, Layout.lines_cons _ _ (Layout.rows_ne_nil _ _ _)]
      refine ⟨w', hw', ?_⟩
      rw [hbuffer, margin_write, hmargin, hwritten, above_resume haligned.valid,
        above_afterBreak hseparator row hlead, ← above_append_line w, List.intercalate_singleton]
      have hrows : l.rows width w.margin (w.margin ++ x) [x] xs ≠ [] := Layout.rows_ne_nil _ _ _
      have hne : l.lines w.margin w.margin (l.rows width w.margin (w.margin ++ x) [x] xs) ≠ [] :=
        Layout.lines_ne_nil _ hrows
      obtain ⟨line, lines, hlines⟩ := List.exists_cons_of_ne_nil hne
      rw [hlead, List.append_nil] at hline
      rw [hlines, List.intercalate_cons_cons, hline]
      simp only [List.append_assoc]
    · -- The line goes on with `x`.
      have hwritten := write_eq_resume w hadded.1 hadded.2
      obtain ⟨w', hw', hbuffer⟩ := ih (hw.write (l.added row x)) hxs start (row ++ [x]) (by
        rw [hwritten, toList_line_resume hw.valid, Layout.intercalate_concat, ← List.append_assoc,
          ← List.append_assoc, hline, lead_resume, ite_self, List.append_nil])
      rw [if_neg (fun h => hbreak (hbreaks.1 h)), if_neg hbreak, write_afterSeparator]
      have hfirst : (row ++ [x]).isEmpty = false := by simp
      refine ⟨w', hfirst ▸ hw', ?_⟩
      rw [hbuffer, margin_write, hwritten, above_resume hw.valid, Layout.intercalate_concat, List.append_assoc]

end Aligned

/-- **Elements fill lines greedily.** Elements without newlines, none of them empty, are written under a width,
from any place that a writer can be at. From the current line on, the text then consists of the lines of their
rows: an element goes on with the line behind the separator, or the line is broken before it, and the next one
begins with the margin, which reaches to the column where the expression continues. It is broken just if it
has got beyond this column and would be wider than the width with the separator, the element and the rest of
the separator before further elements. So a line with two of the elements is within the width. -/
theorem writeElements_fills (hw : w.Reachable) (hwidth : l.width = some width) (hseparator : '\n' ∉ l.separator)
    {xs : List (List Char)} (hxs : ∀ x ∈ xs, x ≠ [] ∧ '\n' ∉ x) :
    let start := w.line.toList ++ if xs.isEmpty then [] else w.lead
    let rows := l.rows width w.margin start [] xs
    let lines := l.lines w.margin start rows
    rows.flatten = xs ∧ w.margin.length = w.continuationColumn ∧ (∀ c ∈ w.margin, isInlineBlank c = true) ∧
    (∃ w', writeElements l (fun cs w => (.ok (w.write cs) : Except ε Writer)) true xs w = .ok w' ∧
      w'.buffer.toList = w.above ++ ['\n'].intercalate lines) ∧
    (∀ line ∈ lines, '\n' ∉ line) ∧
    List.Forall₂ (fun row line => 2 ≤ row.length → line.length ≤ width) rows lines := by
  intro start rows lines
  have hal := hw.aligned
  have hnil : start ++ l.separator.intercalate [] = start := List.append_nil start
  have hflatten : rows.flatten = xs := Layout.flatten_rows start [] xs
  have hstart : '\n' ∉ start := by
    rw [List.mem_append, not_or]
    refine ⟨hal.line, ?_⟩
    split
    · exact List.not_mem_nil
    · exact hal.newline_notMem_lead
  refine ⟨hflatten, w.length_margin, hal.blank_margin, ?_, ?_, ?_⟩
  · have hwritten := hal.writeElements_rows (ε := ε) hwidth hseparator hxs start [] hnil.symm
    rwa [hnil] at hwritten
  · refine Layout.newline_notMem_lines hseparator (fun h => hseparator (mem_of_mem_trimEnd h))
      hal.newline_notMem_margin hstart ?_
    rw [hflatten]
    exact fun x hx => (hxs x hx).2
  · cases xs with
    | nil => exact .cons (fun h => absurd h (by decide)) .nil
    | cons x xs =>
      have hmargin : w.margin.length ≤ start.length := by
        rw [length_margin]
        exact hal.length_line_lead ▸ hal.continuationColumn_le
      have hlines : List.Forall₂ (fun row line => 2 ≤ row.length → line.length ≤ width)
          (l.rows width w.margin (start ++ l.separator.intercalate []) [] (x :: xs)) (l.lines w.margin start _) :=
        Layout.length_lines_le start [] (fun y hy => (hxs y hy).1) hmargin (fun h => absurd h (by decide))
      rwa [hnil] at hlines

/-- Inside an indented expression: a line that is broken before the first element, then one after it, and a
last line that the other elements fill. -/
theorem writeElements_fills_numbers :
    let w := (((empty.write [' ', ' ']).beginExpression false).write "x = ".toList).beginExpression false
    let l : Layout := { separator := ", ".toList, width := some 15 }
    let xs := ["1234567890".toList, "11".toList, "22".toList, "333".toList]
    w.Reachable ∧ w.continuationColumn = 2 ∧ l.width = some 15 ∧ '\n' ∉ l.separator ∧
    (∀ x ∈ xs, x ≠ [] ∧ '\n' ∉ x) ∧
    l.rows 15 w.margin w.line.toList [] xs = [[], [xs[0]], [xs[1], xs[2], xs[3]]] ∧
    ∃ w', writeElements l (fun cs w => (.ok (w.write cs) : Except Unit Writer)) true xs w = .ok w' ∧
      w'.text = "  x = \n  1234567890,\n  11, 22, 333" := by
  intro w l xs
  have hw : w.Reachable := .beginExpression false (.write _ (.beginExpression false (.write _ .empty)))
  have hseparator : '\n' ∉ l.separator := by decide
  have hxs : ∀ x ∈ xs, x ≠ [] ∧ '\n' ∉ x := by decide
  obtain ⟨-, -, -, ⟨w', hw', hbuffer⟩, -, -⟩ := writeElements_fills (ε := Unit) hw (l := l) rfl hseparator hxs
  refine ⟨hw, by decide, rfl, hseparator, hxs, by decide, w', hw', ?_⟩
  rw [text, hbuffer]
  decide

end Writer

end Stencil
