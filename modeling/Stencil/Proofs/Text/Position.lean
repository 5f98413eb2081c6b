import Mathlib.Data.List.Basic
import Mathlib.Data.List.DropRight
import Mathlib.Data.List.TakeWhile
import Stencil.Proofs.Text.Word
import Stencil.Text.Blank
import Stencil.Text.Span

/-!
# Places in a source

An offset is a position of a source if a character boundary lies there (`IsPosition`), and a span is within a source
if it can be cut out of it (`Span.Within`), which is to say that a piece of the source stands there
(`exists_holds_iff`). Scanners cut a source into tokens (`Cut`): each token stands at a piece that spells it, and the
pieces follow one another. The last line of a text is what stands behind its last newline (`rtakeWhile_append`).
-/

namespace Stencil

/-! ## Texts of one byte characters -/

theorem utf8Size_eq_one {c : Char} (h : c.toNat < 128) : c.utf8Size = 1 := by
  rw [Char.utf8Size_eq_one_iff, UInt32.le_iff_toNat_le]
  exact Nat.le_of_lt_succ h

theorem utf8Size_of_isWordPart {c : Char} (h : isWordPart c = true) : c.utf8Size = 1 := by
  rw [isWordPart, Char.isAlphanum, Bool.or_eq_true, Bool.or_eq_true, isAlpha_iff_toNat, Char.isDigit_iff_toNat,
    beq_iff_eq] at h
  rcases h with (h | h) | rfl
  · exact utf8Size_eq_one (by omega)
  · exact utf8Size_eq_one (Nat.lt_of_le_of_lt h.2 (by decide))
  · rfl

theorem utf8Size_of_isAsciiBlank {c : Char} (h : isAsciiBlank c = true) : c.utf8Size = 1 := by
  simp only [isAsciiBlank, Bool.or_eq_true, beq_iff_eq] at h
  rcases h with (((rfl | rfl) | rfl) | rfl) | rfl <;> rfl

theorem utf8Size_of_isInlineBlank {c : Char} (h : isInlineBlank c = true) : c.utf8Size = 1 := by
  simp only [isInlineBlank, Bool.or_eq_true, beq_iff_eq] at h
  rcases h with rfl | rfl <;> rfl

theorem byteLength_eq_length {cs : List Char} (h : ∀ c ∈ cs, c.utf8Size = 1) : byteLength cs = cs.length := by
  induction cs with
  | nil => rfl
  | cons c cs ih =>
    rw [List.forall_mem_cons] at h
    rw [byteLength_cons, h.1, ih h.2, List.length_cons, Nat.add_comm]

theorem byteLength_takeWhile {p : Char → Bool} (hp : ∀ c, p c = true → c.utf8Size = 1) (cs : List Char) :
    byteLength (cs.takeWhile p) = (cs.takeWhile p).length :=
  byteLength_eq_length fun c hc => hp c (List.mem_takeWhile_imp hc)

theorem byteLength_takeWhile_isAsciiBlank (cs : List Char) :
    byteLength (cs.takeWhile isAsciiBlank) = (cs.takeWhile isAsciiBlank).length :=
  byteLength_takeWhile (fun _ => utf8Size_of_isAsciiBlank) cs

theorem byteLength_takeWhile_isInlineBlank (cs : List Char) :
    byteLength (cs.takeWhile isInlineBlank) = (cs.takeWhile isInlineBlank).length :=
  byteLength_takeWhile (fun _ => utf8Size_of_isInlineBlank) cs

theorem byteLength_pos {cs : List Char} (h : cs ≠ []) : 0 < byteLength cs := by
  obtain ⟨c, cs, rfl⟩ := List.exists_cons_of_ne_nil h
  have := c.utf8Size_pos
  rw [byteLength_cons]
  omega

/-! ## Lines -/

section
variable {lines passed : List Char} (hlines : lines = [] ∨ lines.getLast? = some '\n') (hpassed : '\n' ∉ passed)
include hlines hpassed

/-- Behind whole lines, what is left without newlines at the end of a text is its last line. -/
theorem rtakeWhile_append : (lines ++ passed).rtakeWhile (· ≠ '\n') = passed := by
  have hnil : lines.rtakeWhile (· ≠ '\n') = [] := by
    rw [List.rtakeWhile_eq_nil_iff]
    intro hne
    rcases hlines with hlines | hlines
    · exact absurd hlines hne
    · rw [List.getLast?_eq_some_getLast hne, Option.some.injEq] at hlines
      simp [hlines]
  have hall : ∀ c ∈ passed.reverse, decide (c ≠ '\n') = true := by
    intro c hc
    rw [decide_eq_true_eq]
    rintro rfl
    exact hpassed (List.mem_reverse.1 hc)
  calc (lines ++ passed).rtakeWhile (· ≠ '\n')
      = lines.rtakeWhile (· ≠ '\n') ++ passed := by
        rw [List.rtakeWhile, List.reverse_append, List.takeWhile_append_of_pos hall, List.reverse_append,
          List.reverse_reverse]
        rfl
    _ = passed := by rw [hnil, List.nil_append]

theorem rdropWhile_append : (lines ++ passed).rdropWhile (· ≠ '\n') = lines := by
  have h := List.rdropWhile_append_rtakeWhile (p := (· ≠ '\n')) (l := lines ++ passed)
  rw [rtakeWhile_append hlines hpassed] at h
  exact List.append_cancel_right h

end

/-! ## Positions -/

/-- A character boundary of the source lies at the offset. -/
def IsPosition (source : List Char) (n : Nat) : Prop :=
  ∃ before, before <+: source ∧ byteLength before = n

section
variable {source : List Char} {n : Nat}

theorem IsPosition.of_append (before rest : List Char) : IsPosition (before ++ rest) (byteLength before) :=
  ⟨before, List.prefix_append before rest, rfl⟩

theorem isPosition_byteLength (source : List Char) : IsPosition source (byteLength source) :=
  ⟨source, List.prefix_rfl, rfl⟩

theorem IsPosition.le (h : IsPosition source n) : n ≤ byteLength source := by
  obtain ⟨before, ⟨rest, rfl⟩, rfl⟩ := h
  rw [byteLength_append]
  exact Nat.le_add_right ..

end

theorem takeBytes?_append (before rest : List Char) :
    takeBytes? (byteLength before) (before ++ rest) = some before := by
  induction before with
  | nil => cases rest <;> rfl
  | cons c before ih =>
    have := c.utf8Size_pos
    obtain ⟨n, hn⟩ : ∃ n, byteLength (c :: before) = n + 1 := Nat.exists_eq_succ_of_ne_zero (by simp; omega)
    have hle : c.utf8Size ≤ n + 1 := by rw [← hn]; exact Nat.le_add_right ..
    have hrest : n + 1 - c.utf8Size = byteLength before := by rw [← hn, byteLength_cons, Nat.add_sub_cancel_left]
    rw [hn, List.cons_append, takeBytes?, if_pos hle, hrest, ih]
    rfl

/-- A text is cut in one way at a position. -/
theorem append_inj_of_byteLength {before rest before' rest' : List Char} (h : before ++ rest = before' ++ rest')
    (hlength : byteLength before = byteLength before') : before = before' ∧ rest = rest' := by
  have htake := takeBytes?_append before rest
  rw [h, hlength, takeBytes?_append] at htake
  cases htake
  exact ⟨rfl, List.append_cancel_left h⟩

/-! ## Spans -/

/-- The piece of the source stands at the span. -/
def Span.Holds (s : Span) (source piece : List Char) : Prop :=
  ∃ before after, source = before ++ (piece ++ after) ∧ s = ⟨byteLength before, byteLength before + byteLength piece⟩

/-- The span can be cut out of the source. -/
structure Span.Within (s : Span) (source : List Char) : Prop where
  start_le : s.start ≤ s.stop
  stop_le : s.stop ≤ byteLength source
  start : IsPosition source s.start
  stop : IsPosition source s.stop

section
variable {s : Span} {source piece : List Char}

theorem Span.Holds.stop_eq (h : s.Holds source piece) : s.stop = s.start + byteLength piece := by
  obtain ⟨before, after, -, rfl⟩ := h
  rfl

theorem Span.Holds.within (h : s.Holds source piece) : s.Within source := by
  obtain ⟨before, after, rfl, rfl⟩ := h
  have hstop : IsPosition (before ++ (piece ++ after)) (byteLength before + byteLength piece) := by
    rw [← byteLength_append, ← List.append_assoc]
    exact .of_append (before ++ piece) after
  exact ⟨Nat.le_add_right .., hstop.le, .of_append before _, hstop⟩

/-- A span is within the source if it goes from a position to the same or a later one. -/
theorem exists_holds_iff : (∃ piece, s.Holds source piece) ↔ s.Within source := by
  constructor
  · rintro ⟨piece, h⟩
    exact h.within
  · intro h
    obtain ⟨before, hbefore, hstart⟩ := h.start
    obtain ⟨upto, ⟨after, rfl⟩, hstop⟩ := h.stop
    have hprefix : before <+: upto := by
      rcases List.prefix_or_prefix_of_prefix hbefore (List.prefix_append upto after) with hle | ⟨more, rfl⟩
      · exact hle
      · -- The start is not behind the stop, so nothing is between them.
        have hle := h.start_le
        rw [← hstart, ← hstop, byteLength_append] at hle
        have hmore : more = [] := by
          by_contra hne
          have := byteLength_pos hne
          omega
        exact ⟨[], by rw [hmore, List.append_nil, List.append_nil]⟩
    obtain ⟨piece, rfl⟩ := hprefix
    refine ⟨piece, before, after, List.append_assoc .., ?_⟩
    rw [← byteLength_append, hstart, hstop]

end

/-! ## Tokens of a source -/

/-- The tokens stand one after the other in the source, each at a piece that spells it. -/
structure Cut {τ : Type} (Spells : List Char → τ → Prop) (source : List Char) (ts : List (Located τ)) : Prop where
  holds : ∀ t ∈ ts, ∃ piece, Spells piece t.token ∧ t.span.Holds source piece
  ordered : ts.Pairwise fun t u => t.span.stop ≤ u.span.start

namespace Cut
variable {τ : Type} {Spells : List Char → τ → Prop} {source : List Char} {ts : List (Located τ)}

theorem nil : Cut Spells source [] :=
  ⟨nofun, .nil⟩

theorem concat (h : Cut Spells source ts) {t : Located τ} {piece : List Char}
    (hbefore : ∀ u ∈ ts, u.span.stop ≤ t.span.start) (hspells : Spells piece t.token)
    (hspan : t.span.Holds source piece) : Cut Spells source (ts ++ [t]) := by
  constructor
  · intro u hu
    rcases List.mem_append.1 hu with hu | hu
    · exact h.holds u hu
    · rw [List.mem_singleton.1 hu]
      exact ⟨piece, hspells, hspan⟩
  · rw [List.pairwise_append]
    refine ⟨h.ordered, List.pairwise_singleton .., fun u hu v hv => ?_⟩
    rw [List.mem_singleton.1 hv]
    exact hbefore u hu

/-- From a token to the same or a later one there is a piece of the source. -/
theorem within {first last : Located τ} {more : List (Located τ)} (h : Cut Spells source ts)
    (hsuffix : first :: more <:+ ts) (hlast : last ∈ first :: more) :
    Span.Within ⟨first.span.start, last.span.stop⟩ source := by
  obtain ⟨_, -, hspan⟩ := h.holds first (hsuffix.subset List.mem_cons_self)
  obtain ⟨_, -, hspan'⟩ := h.holds last (hsuffix.subset hlast)
  have hfirst := hspan.within
  have hlast' := hspan'.within
  refine ⟨?_, hlast'.stop_le, hfirst.start, hlast'.stop⟩
  rcases List.mem_cons.1 hlast with rfl | hmore
  · exact hfirst.start_le
  · have hordered := (List.pairwise_cons.1 (h.ordered.sublist hsuffix.sublist)).1 last hmore
    have := hfirst.start_le
    have := hlast'.start_le
    dsimp only
    omega

end Cut

end Stencil
