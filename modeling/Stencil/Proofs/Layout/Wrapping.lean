import Stencil.Proofs.Layout.Filling

/-!
# Where lines are broken

Elements are written one after the other, each at its place: behind the separator on the line, or at the start of
a new line (`Writer.placed`). The line is broken before an element just if it has got beyond the margin and would
be too wide: with the first line of the element on it, and with room for the separator's rest if more elements
follow (`Writer.Placed.broken_iff`). So elements of any kind keep a line that has got beyond the margin within the
width, up to the end of their own first line; and elements that end on the line on which they begin are moved only
where a line would be too wide without it. Main statement: `Writer.writeElements_wraps`. Behind an element that
leaves the line at the margin, the next one is not moved however wide it is, and an element of several lines is
moved although the separator's rest will not stand on its first line (`Writer.writeElements_passes_width`).
-/

namespace Stencil.Writer

/-! ## Lines -/

/-- The line on which a writer stood, in what has become of it. -/
def lineFrom (w v : Writer) : List Char :=
  (v.buffer.toList.drop w.lineStart).takeWhile (· ≠ '\n')

/-- The lines from the one on which a writer stood, in what has become of it. -/
def linesFrom (w v : Writer) : List (List Char) :=
  (v.buffer.toList.drop w.lineStart).splitOn '\n'

theorem lineFrom_mem_linesFrom (w v : Writer) : w.lineFrom v ∈ w.linesFrom v := by
  have hfirst : ∀ cs : List Char, ∃ further, cs.splitOn '\n' = cs.takeWhile (· ≠ '\n') :: further := by
    intro cs
    induction cs with
    | nil => exact ⟨[], List.splitOn_nil _⟩
    | cons c cs ih =>
      obtain ⟨further, ih⟩ := ih
      rw [List.splitOn] at ih ⊢
      rw [List.splitOnP_cons_eq_if_modifyHead, ih]
      by_cases hc : c = '\n'
      · exact ⟨_, by rw [if_pos (by simpa using hc), List.takeWhile_cons_of_neg (by simpa using hc)]⟩
      · refine ⟨further, ?_⟩
        rw [if_neg (by simpa using hc), List.modifyHead_cons, List.takeWhile_cons_of_pos (by simpa using hc)]
  obtain ⟨further, h⟩ := hfirst (v.buffer.toList.drop w.lineStart)
  rw [linesFrom, h]
  exact List.mem_cons_self

/-- A line that is not pending goes on with text that does not end it. -/
theorem linesFrom_write {w : Writer} (hw : w.Aligned) (hpending : w.pendingIndent = false) {cs : List Char}
    (hcs : '\n' ∉ cs) :
    w.lineFrom (w.write cs) = w.line.toList ++ cs ∧ w.linesFrom (w.write cs) = [w.line.toList ++ cs] := by
  have hnewline : '\n' ∉ w.line.toList ++ cs := by
    rw [List.mem_append, not_or]
    exact ⟨hw.line, hcs⟩
  have htext : (w.write cs).buffer.toList.drop w.lineStart = w.line.toList ++ cs := by
    rw [write_eq_append hpending hcs, ← toList_line_append hw.valid, toList_line]
    rfl
  rw [lineFrom, linesFrom, htext]
  refine ⟨List.takeWhile_eq_self_iff.2 fun c hc => ?_, List.splitOn_eq_singleton hnewline⟩
  exact decide_eq_true fun heq => hnewline (heq ▸ hc)

section
variable {ε : Type} {f : Writer → Except ε Writer} {w child v : Writer}

/-- The first line on a fork is the line on which the writer stands. -/
theorem length_lineFrom (hf : Balanced f) (hw : w.Valid) (hchild : f w.fork = .ok child) (hv : f w = .ok v) :
    (w.lineFrom v).length = child.firstLineWidth := by
  have habsorb := hf.absorb_fork hw
  rw [hchild, hv] at habsorb
  have hv : v = child.after (w.buffer.extract 0 w.lineStart) w.base :=
    (Except.ok.inj habsorb).symm.trans (absorb_eq_after hw (hf.extends hchild))
  have hsize : (w.buffer.extract 0 w.lineStart).toList.length = w.lineStart :=
    congrArg lineStart (fork_after_above hw)
  have htext : v.buffer.toList = (w.buffer.extract 0 w.lineStart).toList ++ child.buffer.toList := by
    rw [hv, Writer.after, Array.toList_append]
  rw [lineFrom, firstLineWidth, htext, List.drop_left' hsize]

end

/-! ## Elements at their places -/

/-- An element at its place among the elements of an expression. -/
structure Placed (α : Type) where
  element : α
  before : Writer
  first : Bool
  /-- Whether more elements follow. -/
  more : Bool
  /-- Whether the line is broken before the element. -/
  broken : Bool
  after : Writer
deriving DecidableEq, Repr

def Placed.start {α : Type} (l : Layout) (p : Placed α) : Writer :=
  if p.broken then p.before.afterBreak l p.first else p.before.afterSeparator l p.first

section
variable {α ε : Type} {l : Layout} {render : α → Writer → Except ε Writer} {xs : List α} {first : Bool} {w : Writer}
  {ps : List (Placed α)}

/-- The places at which elements are written. -/
def placed (l : Layout) (render : α → Writer → Except ε Writer) (first : Bool) :
    List α → Writer → Except ε (List (Placed α))
  | [], _ => .ok []
  | x :: xs, w => do
    let child ← render x (w.fork.afterSeparator l first)
    let broken := l.breaks w child !xs.isEmpty
    let after ← render x (if broken then w.afterBreak l first else w.afterSeparator l first)
    return ⟨x, w, first, !xs.isEmpty, broken, after⟩ :: (← placed l render false xs after)

/-- Writing elements is writing each of them at its place. -/
theorem writeElements_eq_placed (hb : ∀ x ∈ xs, Balanced (render x)) (first : Bool) (hw : w.Valid) :
    writeElements l render first xs w = (placed l render first xs w).map (·.foldl (fun _ p => p.after) w) := by
  induction xs generalizing first w with
  | nil => rfl
  | cons x xs ih =>
    obtain ⟨hx, hb⟩ := List.forall_mem_cons.1 hb
    rw [writeElements_cons hx first xs hw, placed]
    cases render x (w.fork.afterSeparator l first) with
    | error e => rfl
    | ok child =>
      have hstart := extends_beforeElement l first (l.breaks w child !xs.isEmpty) w
      simp only [bind, Except.bind]
      cases hafter : render x
          (if l.breaks w child !xs.isEmpty then w.afterBreak l first else w.afterSeparator l first) with
      | error e => rfl
      | ok after =>
        dsimp only
        rw [ih hb false ((hstart.trans (hx.extends hafter)).valid hw)]
        cases placed l render false xs after <;> rfl

/-- The place of the first element, and those of the others. -/
theorem exists_of_placed_cons {x : α} (h : placed l render first (x :: xs) w = .ok ps) :
    ∃ child after qs, render x (w.fork.afterSeparator l first) = .ok child ∧
      let broken := l.breaks w child !xs.isEmpty
      render x (if broken then w.afterBreak l first else w.afterSeparator l first) = .ok after ∧
      placed l render false xs after = .ok qs ∧ ps = ⟨x, w, first, !xs.isEmpty, broken, after⟩ :: qs := by
  obtain ⟨child, hchild, h⟩ := bind_eq_ok.1 h
  obtain ⟨after, hafter, h⟩ := bind_eq_ok.1 h
  obtain ⟨qs, hqs, h⟩ := bind_eq_ok.1 h
  cases h
  exact ⟨child, after, qs, hchild, hafter, hqs, rfl⟩

/-- What is known of an element at its place. -/
structure Placed.Written (l : Layout) (render : α → Writer → Except ε Writer) (p : Placed α) : Prop where
  aligned : p.before.Aligned
  balanced : Balanced (render p.element)
  /-- The element was written on a fork to see whether the line has to be broken. -/
  broken : ∃ child, render p.element (p.before.fork.afterSeparator l p.first) = .ok child ∧
    p.broken = l.breaks p.before child p.more
  after : render p.element (p.start l) = .ok p.after

/-- The places are those of the elements, in order. -/
theorem getElem?_placed (hb : ∀ x ∈ xs, Balanced (render x)) (hw : w.Aligned)
    (h : placed l render first xs w = .ok ps) {n : Nat} {p : Placed α} (hp : ps[n]? = some p) :
    xs[n]? = some p.element ∧ p.first = (first && decide (n = 0)) ∧ p.more = decide (n + 1 < xs.length) ∧
      w.Extends p.before ∧ p.Written l render := by
  induction xs generalizing first w ps n with
  | nil =>
    cases h
    cases hp
  | cons x xs ih =>
    obtain ⟨hx, hb⟩ := List.forall_mem_cons.1 hb
    obtain ⟨child, after, qs, hchild, hafter, hqs, rfl⟩ := exists_of_placed_cons h
    cases n with
    | zero =>
      cases hp
      refine ⟨rfl, (Bool.and_true _).symm, ?_, .refl w, hw, hx, ⟨child, hchild, rfl⟩, hafter⟩
      cases xs <;> simp
    | succ n =>
      have hextends := (extends_beforeElement l first (l.breaks w child !xs.isEmpty) w).trans (hx.extends hafter)
      have haligned : after.Aligned := hx.keeps kept_aligned (Kept.beforeElement kept_aligned hw l first _) hafter
      obtain ⟨helement, hfirst, hmore, hbefore, hwritten⟩ := ih hb haligned hqs hp
      refine ⟨helement, ?_, ?_, hextends.trans hbefore, hwritten⟩
      · simpa using hfirst
      · simpa using hmore

theorem length_placed (h : placed l render first xs w = .ok ps) : ps.length = xs.length := by
  induction xs generalizing first w ps with
  | nil =>
    cases h
    rfl
  | cons x xs ih =>
    obtain ⟨child, after, qs, -, -, hqs, rfl⟩ := exists_of_placed_cons h
    rw [List.length_cons, List.length_cons, ih hqs]

namespace Placed

variable {p : Placed α} {width : Nat}

/-- **The line is broken** before an element just if it has got beyond the margin, and the line on which the
element would begin would be wider than the width, with room for the separator's rest before further elements. -/
theorem broken_iff (hp : p.Written l render) (hwidth : l.width = some width) {inPlace : Writer}
    (h : render p.element (p.before.afterSeparator l p.first) = .ok inPlace) :
    p.broken = true ↔ p.before.continuationColumn < p.before.nextColumn ∧
      width < (p.before.lineFrom inPlace).length + if p.more then l.lineEnd.length else 0 := by
  obtain ⟨child, hchild, hbroken⟩ := hp.broken
  have hline := length_lineFrom (hp.balanced.afterSeparator l p.first) hp.aligned.valid hchild h
  rw [hbroken, Layout.breaks, hwidth, hline]
  simp only [Bool.and_eq_true, decide_eq_true_eq]

/-- A line that is not broken, although it has got beyond the margin, is within the width. -/
theorem length_lineFrom_le (hp : p.Written l render) (hwidth : l.width = some width) (hbroken : p.broken = false)
    (hbeyond : p.before.continuationColumn < p.before.nextColumn) : (p.before.lineFrom p.after).length ≤ width := by
  have hafter := hp.after
  rw [start, hbroken, if_neg Bool.false_ne_true] at hafter
  by_contra hwide
  have hbreaks := (broken_iff hp hwidth hafter).2 ⟨hbeyond, by omega⟩
  rw [hbroken] at hbreaks
  cases hbreaks

end Placed
end

/-! ## Texts -/

abbrev writeText {ε : Type} (cs : List Char) (w : Writer) : Except ε Writer :=
  .ok (w.write cs)

/-- The element on the line: behind the separator, with the separator's rest if more elements follow. -/
def Placed.inPlace (l : Layout) (p : Placed (List Char)) : Writer :=
  let w := (p.before.afterSeparator l p.first).write p.element
  if p.more then w.write l.lineEnd else w

section
variable {ε : Type} {l : Layout} {width : Nat} {w : Writer}

theorem exists_placed_writeText (l : Layout) (first : Bool) (xs : List (List Char)) (w : Writer) :
    ∃ ps, placed l (writeText (ε := ε)) first xs w = .ok ps := by
  induction xs generalizing first w with
  | nil => exact ⟨[], rfl⟩
  | cons x xs ih =>
    obtain ⟨ps, hps⟩ := ih false
      ((if l.breaks w ((w.fork.afterSeparator l first).write x) !xs.isEmpty then w.afterBreak l first
        else w.afterSeparator l first).write x)
    exact ⟨_, bind_eq_ok.2 ⟨_, rfl, bind_eq_ok.2 ⟨_, rfl, bind_eq_ok.2 ⟨ps, hps, rfl⟩⟩⟩⟩

/-- An element that ends on the line on which it begins is moved only where a line would be too wide. -/
theorem Placed.exists_wide_line {p : Placed (List Char)} (hp : p.Written l (writeText (ε := ε)))
    (hwidth : l.width = some width) (hseparator : '\n' ∉ l.separator) (hbroken : p.broken = true)
    (hline : '\n' ∉ p.element ∨ p.more = false) :
    ∃ line ∈ p.before.linesFrom (p.inPlace l), width < line.length := by
  obtain ⟨hbeyond, hwide⟩ := (broken_iff hp hwidth rfl).1 hbroken
  cases hmore : p.more with
  | false =>
    rw [hmore, if_neg Bool.false_ne_true, Nat.add_zero] at hwide
    refine ⟨_, lineFrom_mem_linesFrom p.before (p.inPlace l), ?_⟩
    rwa [inPlace, hmore, if_neg Bool.false_ne_true]
  | true =>
    rw [hmore, if_pos rfl] at hwide
    have hpending : p.before.pendingIndent = false := by
      cases hpending : p.before.pendingIndent with
      | false => rfl
      | true =>
        rw [nextColumn, if_pos hpending] at hbeyond
        exact absurd hbeyond (Nat.lt_irrefl _)
    have hend : '\n' ∉ l.lineEnd := fun h => hseparator (mem_of_mem_trimEnd h)
    have helement : '\n' ∉ p.element := hline.resolve_right (by simp [hmore])
    have hadded : '\n' ∉ (if p.first then [] else l.separator) ++ p.element := by
      rw [List.mem_append, not_or]
      refine ⟨?_, helement⟩
      split
      · exact List.not_mem_nil
      · exact hseparator
    have hwritten : (p.before.afterSeparator l p.first).write p.element =
        p.before.write ((if p.first then [] else l.separator) ++ p.element) := by
      rw [write_append, afterSeparator]
      split <;> rfl
    have hall : '\n' ∉ (if p.first then [] else l.separator) ++ p.element ++ l.lineEnd := by
      rw [List.mem_append, not_or]
      exact ⟨hadded, hend⟩
    rw [hwritten, (linesFrom_write hp.aligned hpending hadded).1] at hwide
    rw [inPlace, hmore, if_pos rfl, hwritten, ← write_append, (linesFrom_write hp.aligned hpending hall).2]
    refine ⟨_, List.mem_singleton.2 rfl, ?_⟩
    rw [← List.append_assoc, List.length_append]
    exact hwide

/-- **Lines are broken where they get too wide**, whatever texts the elements are, from any place that a writer can
be at. The line is broken before an element just if it has got beyond the column where the expression continues,
and the line on which the element would begin would be wider than the width, with room for the separator's rest
before further elements. So, where the line has got beyond this column and an element follows on it, it is within
the width up to the end of the element's first line. And where it is broken before an element without newlines, or
before the last one, a line would be wider than the width if the element followed in place, with the separator's
rest behind it before further elements. -/
theorem writeElements_wraps (hw : w.Reachable) (hwidth : l.width = some width) (hseparator : '\n' ∉ l.separator)
    (xs : List (List Char)) :
    ∃ ps, placed l (writeText (ε := ε)) true xs w = .ok ps ∧
      writeElements l writeText true xs w = (.ok (ps.foldl (fun _ p => p.after) w) : Except ε Writer) ∧
      ps.length = xs.length ∧
      ∀ (n : Nat) (p : Placed (List Char)), ps[n]? = some p →
        xs[n]? = some p.element ∧ p.first = decide (n = 0) ∧ p.more = decide (n + 1 < xs.length) ∧
        p.after = (p.start l).write p.element ∧
        let beyond := p.before.continuationColumn < p.before.nextColumn
        let line := p.before.lineFrom ((p.before.afterSeparator l p.first).write p.element)
        (p.broken = true ↔ beyond ∧ width < line.length + if p.more then l.lineEnd.length else 0) ∧
        (p.broken = false → beyond → (p.before.lineFrom p.after).length ≤ width) ∧
        (p.broken = true → '\n' ∉ p.element ∨ p.more = false →
          ∃ line ∈ p.before.linesFrom (p.inPlace l), width < line.length) := by
  have hb : ∀ x ∈ xs, Balanced (writeText (ε := ε) x) := fun x _ => .write x
  obtain ⟨ps, hps⟩ := exists_placed_writeText (ε := ε) l true xs w
  refine ⟨ps, hps, ?_, length_placed hps, fun n p hp => ?_⟩
  · rw [writeElements_eq_placed hb true hw.valid, hps]
    rfl
  · obtain ⟨helement, hfirst, hmore, -, hwritten⟩ := getElem?_placed hb hw.aligned hps hp
    exact ⟨helement, hfirst, hmore, (Except.ok.inj hwritten.after).symm, Placed.broken_iff hwritten hwidth rfl,
      Placed.length_lineFrom_le hwritten hwidth, Placed.exists_wide_line hwritten hwidth hseparator⟩

/-- Inside an indented expression: an element of two lines, an empty one, one before which the line is broken, and
one that fills its line. -/
theorem writeElements_wraps_mixed :
    let w := (((empty.write [' ', ' ']).beginExpression false).write "x = ".toList).beginExpression false
    let l : Layout := { separator := ", ".toList, width := some 12 }
    let xs := ["ab\nc".toList, [], "efghij".toList, "kl".toList]
    w.Reachable ∧ l.width = some 12 ∧ '\n' ∉ l.separator ∧
    ∃ ps, placed l (writeText (ε := Unit)) true xs w = .ok ps ∧ ps.map (·.broken) = [false, false, true, false] ∧
      (∃ w', writeElements l writeText true xs w = (.ok w' : Except Unit Writer) ∧
        w'.text = "  x = ab\n  c, ,\n  efghij, kl") ∧
      (∀ p, ps[2]? = some p → ∃ line ∈ p.before.linesFrom (p.inPlace l), 12 < line.length) ∧
      ∀ p, ps[3]? = some p → (p.before.lineFrom p.after).length ≤ 12 := by
  intro w l xs
  have hw : w.Reachable := .beginExpression false (.write _ (.beginExpression false (.write _ .empty)))
  have hseparator : '\n' ∉ l.separator := by decide
  obtain ⟨ps, hps, hwritten, -, hplaces⟩ := writeElements_wraps (ε := Unit) hw (l := l) rfl hseparator xs
  -- What the places of the elements are like: whether the line is broken, and whether it has got beyond the margin.
  let shape (p : Placed (List Char)) := (p.broken, decide (p.before.continuationColumn < p.before.nextColumn))
  have hshapes : (placed l (writeText (ε := Unit)) true xs w).map (·.map shape) =
      .ok [(false, true), (false, true), (true, true), (false, true)] := by decide
  have htext : (writeElements l (writeText (ε := Unit)) true xs w).map text =
      .ok "  x = ab\n  c, ,\n  efghij, kl" := by decide
  rw [hps] at hshapes
  rw [hwritten] at htext
  have hshapes : ps.map shape = [(false, true), (false, true), (true, true), (false, true)] := Except.ok.inj hshapes
  have hplace : ∀ (n : Nat) (p : Placed (List Char)), ps[n]? = some p → (ps.map shape)[n]? = some (shape p) :=
    fun n p hp => by rw [List.getElem?_map, hp]; rfl
  rw [hshapes] at hplace
  refine ⟨hw, rfl, hseparator, ps, hps, ?_, ⟨_, hwritten, Except.ok.inj htext⟩, fun p hp => ?_, fun p hp => ?_⟩
  · have hfst := congrArg (List.map Prod.fst) hshapes
    rwa [List.map_map] at hfst
  · obtain ⟨helement, -, -, -, -, -, hwide⟩ := hplaces 2 p hp
    have helement : p.element = "efghij".toList := (Option.some.inj helement).symm
    have hbroken := congrArg Prod.fst (Option.some.inj (hplace 2 p hp))
    exact hwide hbroken.symm (.inl (helement ▸ by decide))
  · obtain ⟨-, -, -, -, -, hnarrow, -⟩ := hplaces 3 p hp
    have hshape := Option.some.inj (hplace 3 p hp)
    exact hnarrow (congrArg Prod.fst hshape).symm (of_decide_eq_true (congrArg Prod.snd hshape).symm)

/-- Two elements whose line gets too wide. The first one is empty and leaves the line where it begins, and so the
second one follows although the line gets wider than the width with it. An element of two lines begins a new line,
although in place no line would be wider than the width: the separator's rest stands behind its second line. -/
theorem writeElements_passes_width :
    let w := empty.beginExpression false
    let l : Layout := { separator := ", ".toList, width := some 7 }
    let xs := [[], "abcdef".toList]
    let l' : Layout := { separator := ",".toList, width := some 5 }
    let xs' := ["x".toList, "aaa\nb".toList, "c".toList]
    w.Reachable ∧
    (∃ ps, placed l (writeText (ε := Unit)) true xs w = .ok ps ∧
      ∃ p ∈ ps, p.first = false ∧ p.broken = false ∧ 7 < (p.before.lineFrom p.after).length) ∧
    (writeElements l (writeText (ε := Unit)) true xs w).map text = .ok ", abcdef" ∧
    (∃ ps, placed l' (writeText (ε := Unit)) true xs' w = .ok ps ∧
      ∃ p ∈ ps, p.broken = true ∧ ∀ line ∈ p.before.linesFrom (p.inPlace l'), line.length ≤ 5) ∧
    (writeElements l' (writeText (ε := Unit)) true xs' w).map text = .ok "x,\naaa\nb,c" := by
  intro w l xs l' xs'
  refine ⟨.beginExpression false .empty, ⟨_, rfl, ?_⟩, by decide, ⟨_, rfl, ?_⟩, by decide⟩
  · decide
  · decide

end
end Stencil.Writer
