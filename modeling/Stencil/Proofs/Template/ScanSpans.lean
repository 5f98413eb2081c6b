import Stencil.Proofs.Template.EscapeTags

/-!
# Where tokens and scanning errors stand

The scanner moves its offset by numbers of bytes. `ScanState.Tidy` says that these are the bytes of what it has
read: the offset is a position of the source, and what has been emitted cuts the source (`Cut`). Every operation on
states keeps this, so every step does (`stepSound_step`), and each token of a source stands at a piece that spells it
(`cut_of_scan`). Of the errors, one can be at a span that is not within the source (`scanFault_of_scan`).
-/

namespace Stencil.Template

variable {d : Delimiters}

/-! ## Spelling -/

/-- The piece of a source is a way to write the token. Literal text is not looked into. -/
def Spells (d : Delimiters) (piece : List Char) (t : Token) : Prop :=
  piece ≠ [] ∧
    match t with
    | .text _ => True
    | .str s => ∃ body, piece = '"' :: (body ++ ['"']) ∧ s = String.ofList (unescape body)
    | .int n => (∀ c ∈ piece, c.isDigit = true) ∧ n = decimalValue piece
    | _ => piece = t.source d

theorem spells_punctuation? {c : Char} {t : Token} (h : punctuation? c = some t) : Spells d [c] t := by
  refine ⟨List.cons_ne_nil _ _, ?_⟩
  unfold punctuation? at h
  split at h
  case h_10 => cases h
  all_goals
    cases h
    rfl

theorem spells_word {name : List Char} (hne : name ≠ []) : Spells d name (.word (String.ofList name)) :=
  ⟨hne, String.toList_ofList.symm⟩

/-- What a token of an expression takes spells it. -/
theorem TakesToken.spells {c : Char} {more rest : List Char} {t : Token} (h : TakesToken c more t rest) :
    Spells d (c :: more) t := by
  cases h with
  | punctuation hc => exact spells_punctuation? hc
  | word => exact spells_word (List.cons_ne_nil _ _)
  | percent => exact spells_word (List.cons_ne_nil _ _)
  | int hc hmore => exact ⟨List.cons_ne_nil _ _, List.forall_mem_cons.2 ⟨hc, hmore⟩, rfl⟩
  | @str body _ hc =>
    subst hc
    exact ⟨List.cons_ne_nil _ _, body, rfl, rfl⟩

/-- A comment ends behind the first exclamation mark that the stop delimiter follows. -/
theorem skipComment_eq_some {stop : Char} {cs rest : List Char} {n : Nat}
    (h : skipComment stop cs = some (n, rest)) :
    ∃ body, cs = body ++ '!' :: stop :: rest ∧ n = byteLength (body ++ ['!', stop]) := by
  induction cs generalizing n with
  | nil => cases h
  | cons c cs ih =>
    have htail : (skipComment stop cs).map (fun found => (c.utf8Size + found.1, found.2)) = some (n, rest) →
        ∃ body, c :: cs = body ++ '!' :: stop :: rest ∧ n = byteLength (body ++ ['!', stop]) := by
      intro h
      obtain ⟨⟨bytes, after⟩, hskip, heq⟩ := Option.map_eq_some_iff.1 h
      cases heq
      obtain ⟨body, rfl, rfl⟩ := ih hskip
      exact ⟨c :: body, rfl, rfl⟩
    unfold skipComment at h
    split at h
    · next next rest' hc =>
      split at h
      · next hnext =>
        cases h
        rw [beq_iff_eq.1 hc, beq_iff_eq.1 hnext]
        exact ⟨[], rfl, by simp; rfl⟩
      · exact htail h
    · exact htail h

/-! ## States -/

def Opening.span (d : Delimiters) : Opening → Span
  | .expression offset => ⟨offset, offset + d.start.utf8Size⟩
  | .braces offset => ⟨offset, offset + 1⟩

/-- The scanner stands in the source before the input, and its tokens cut what is before the bound. -/
structure ScanState.Tidy (d : Delimiters) (source input : List Char) (bound : Nat) (st : ScanState) : Prop where
  pos : ∃ before, source = before ++ input ∧ byteLength before = st.pos
  openings : ∀ o ∈ st.openings, (o.span d).Within source
  cut : Cut (Spells d) source st.emitted.reverse
  stop_le : ∀ t ∈ st.emitted, t.span.stop ≤ bound
  isPosition : IsPosition source bound
  bound_le : bound ≤ st.pos
  /-- Pending literal text has been read behind the bound. -/
  literal : st.literal ≠ [] → bound < st.pos

namespace ScanState.Tidy

variable {source input piece rest : List Char} {bound : Nat} {st : ScanState}

theorem holds_behind {skipped : List Char} (h : Tidy d source (skipped ++ (piece ++ rest)) bound st) :
    Span.Holds ⟨st.pos + byteLength skipped, st.pos + byteLength skipped + byteLength piece⟩ source piece := by
  obtain ⟨before, rfl, hpos⟩ := h.pos
  refine ⟨before ++ skipped, rest, (List.append_assoc ..).symm, ?_⟩
  rw [byteLength_append, hpos]

theorem holds (h : Tidy d source (piece ++ rest) bound st) :
    Span.Holds ⟨st.pos, st.pos + byteLength piece⟩ source piece := by
  have hspan : Span.Holds ⟨st.pos + byteLength [], st.pos + byteLength [] + byteLength piece⟩ source piece :=
    h.holds_behind
  exact hspan

theorem at_rest (h : Tidy d source (piece ++ rest) bound st) :
    ∃ before, source = before ++ rest ∧ byteLength before = st.pos + byteLength piece := by
  obtain ⟨before, rfl, hpos⟩ := h.pos
  exact ⟨before ++ piece, (List.append_assoc ..).symm, by rw [byteLength_append, hpos]⟩

/-- With no literal text pending, the tokens end before the offset. -/
theorem upto_pos (h : Tidy d source input bound st) (hliteral : st.literal = []) : Tidy d source input st.pos st where
  pos := h.pos
  openings := h.openings
  cut := h.cut
  stop_le t ht := Nat.le_trans (h.stop_le t ht) h.bound_le
  isPosition := by
    obtain ⟨before, rfl, hpos⟩ := h.pos
    rw [← hpos]
    exact .of_append before input
  bound_le := Nat.le_refl _
  literal hne := absurd hliteral hne

theorem literal_eq_nil (h : Tidy d source input st.pos st) : st.literal = [] := by
  by_contra hne
  exact Nat.lt_irrefl _ (h.literal hne)

/-- A piece of the source is passed over, as literal text or not. -/
theorem pass (hpiece : piece ≠ []) (h : Tidy d source (piece ++ rest) bound st) (literal : List Char) :
    Tidy d source rest bound { st with literal, pos := st.pos + byteLength piece } := by
  have hpos := byteLength_pos hpiece
  have hle := h.bound_le
  refine ⟨h.at_rest, h.openings, h.cut, h.stop_le, h.isPosition, ?_, fun _ => ?_⟩
  · dsimp only
    omega
  · dsimp only
    omega

/-- A piece of the source is passed over between tokens. -/
theorem skip (h : Tidy d source (piece ++ rest) st.pos st) :
    Tidy d source rest (st.skip (byteLength piece)).pos (st.skip (byteLength piece)) := by
  have hliteral := h.literal_eq_nil
  have hskip : Tidy d source rest st.pos (st.skip (byteLength piece)) :=
    ⟨h.at_rest, h.openings, h.cut, h.stop_le, h.isPosition, Nat.le_add_right .., fun hne => absurd hliteral hne⟩
  exact hskip.upto_pos hliteral

/-- A piece of the source becomes a token. -/
theorem emit {t : Token} (ht : Spells d piece t) (h : Tidy d source (piece ++ rest) st.pos st) :
    Tidy d source rest (st.emit t (byteLength piece)).pos (st.emit t (byteLength piece)) := by
  have hskip := h.skip
  refine ⟨hskip.pos, hskip.openings, ?_, ?_, hskip.isPosition, hskip.bound_le, hskip.literal⟩
  · rw [ScanState.emit, List.reverse_cons]
    exact h.cut.concat (fun u hu => h.stop_le u (List.mem_reverse.1 hu)) ht h.holds
  · intro u hu
    rcases List.mem_cons.1 hu with rfl | hu
    · exact Nat.le_refl _
    · exact Nat.le_trans (h.stop_le u hu) (Nat.le_add_right ..)

/-- The literal text since the bound becomes a token. -/
theorem flush (h : Tidy d source input st.literalStart st) : Tidy d source input st.flush.pos st.flush := by
  rw [pos_flush, ScanState.flush]
  split
  · next hempty => exact h.upto_pos (List.isEmpty_iff.1 hempty)
  · next hne =>
    have hlt : st.literalStart < st.pos := h.literal (by simpa using hne)
    have hbare : Tidy d source input st.literalStart { st with literal := [] } :=
      ⟨h.pos, h.openings, h.cut, h.stop_le, h.isPosition, h.bound_le, fun hne => absurd rfl hne⟩
    have hpos : Tidy d source input st.pos { st with literal := [] } := hbare.upto_pos rfl
    have hspan : Span.Within ⟨st.literalStart, st.pos⟩ source :=
      ⟨h.bound_le, hpos.isPosition.le, h.isPosition, hpos.isPosition⟩
    obtain ⟨piece, hpiece⟩ := exists_holds_iff.2 hspan
    have hspells : Spells d piece (.text (String.ofList st.literal.reverse)) := by
      refine ⟨?_, trivial⟩
      rintro rfl
      have hstop := hpiece.stop_eq
      rw [byteLength_nil] at hstop
      dsimp only at hstop
      omega
    refine ⟨hpos.pos, hpos.openings, ?_, ?_, hpos.isPosition, hpos.bound_le, hpos.literal⟩
    · rw [List.reverse_cons]
      exact h.cut.concat (fun u hu => h.stop_le u (List.mem_reverse.1 hu)) hspells hpiece
    · intro u hu
      rcases List.mem_cons.1 hu with rfl | hu
      · exact Nat.le_refl _
      · exact hpos.stop_le u hu

theorem close (h : Tidy d source input bound st) : Tidy d source input bound st.close :=
  ⟨h.pos, fun o ho => h.openings o (List.mem_of_mem_tail ho), h.cut, h.stop_le, h.isPosition, h.bound_le, h.literal⟩

theorem opened (h : Tidy d source input bound st) {o : Opening} (ho : (o.span d).Within source) (start : Nat) :
    Tidy d source input bound { st with openings := o :: st.openings, literalStart := start } :=
  ⟨h.pos, List.forall_mem_cons.2 ⟨ho, h.openings⟩, h.cut, h.stop_le, h.isPosition, h.bound_le, h.literal⟩

end ScanState.Tidy

theorem splitWord?_eq_some {cs name rest : List Char} (h : splitWord? cs = some (name, rest)) :
    cs = name ++ rest ∧ name ≠ [] ∧ byteLength name = name.length := by
  cases cs with
  | nil => cases h
  | cons c cs =>
    rw [splitWord?] at h
    split at h
    · next hc =>
      cases h
      refine ⟨by simp, List.cons_ne_nil _ _, byteLength_eq_length ?_⟩
      intro x hx
      rcases List.mem_cons.1 hx with rfl | hx
      · exact utf8Size_of_isWordPart (isWordPart_of_isWordStart hc)
      · exact utf8Size_of_isWordPart (List.mem_takeWhile_imp hx)
    · cases h

/-- The parameters of an anonymous template become tokens, one by one. -/
theorem ScanState.Tidy.header {source cs after : List Char} {st : ScanState} {p : Nat}
    {tokens : List (Located Token)} (h : Tidy d source cs st.pos st)
    (hheader : header? st.pos cs = some (tokens, p, after)) :
    Tidy d source after p { st with pos := p, emitted := tokens.reverse ++ st.emitted } := by
  induction hn : cs.length using Nat.strongRecOn generalizing cs st tokens with
  | ind n ih =>
    unfold header? at hheader
    split at hheader
    · cases hheader
    · next name r hword =>
      obtain ⟨hcs, hne, hname⟩ := splitWord?_eq_some hword
      rw [← List.takeWhile_append_dropWhile (p := isAsciiBlank) (l := cs), hcs] at h
      rw [← byteLength_takeWhile_isAsciiBlank cs, ← hname, ← byteLength_takeWhile_isAsciiBlank r] at hheader
      dsimp only at hheader
      split at hheader
      · next rest hrest =>
        obtain ⟨⟨tokens', p', after'⟩, hrec, heq⟩ := Option.map_eq_some_iff.1 hheader
        cases heq
        rw [← List.takeWhile_append_dropWhile (p := isAsciiBlank) (l := r), hrest] at h
        have hcomma : Spells d [','] .comma := ⟨List.cons_ne_nil _ _, rfl⟩
        have hread := (h.skip.emit (spells_word hne)).skip.emit hcomma
        have hlt : rest.length < n := by
          have hr := congrArg List.length hrest
          have := length_lt_of_splitWord? hword
          have := length_dropWhile_le isAsciiBlank cs
          have := length_dropWhile_le isAsciiBlank r
          rw [List.length_cons] at hr
          omega
        have hdone := ih rest.length hlt hread hrec rfl
        rw [List.reverse_cons, List.reverse_cons, List.append_assoc, List.append_assoc]
        exact hdone
      · next rest hrest =>
        cases hheader
        rw [← List.takeWhile_append_dropWhile (p := isAsciiBlank) (l := r), hrest,
          ← List.takeWhile_append_dropWhile (p := isInlineBlank) (l := rest)] at h
        rw [← byteLength_takeWhile_isInlineBlank rest]
        have hpipe : Spells d ['|'] .pipe := ⟨List.cons_ne_nil _ _, rfl⟩
        exact ((h.skip.emit (spells_word hne)).skip.emit hpipe).skip
      · cases hheader

/-! ## Errors -/

/-- What is known of where a fault of the scanner is reported: within the source, but for an escape without meaning,
which has the backslash and the byte behind it. -/
inductive ScanFault (source : List Char) : SyntaxError → Prop where
  | within {s : Span} {fault : SyntaxFault} : s.Within source → fault ≠ .unknownEscape → fault ≠ .unexpectedEnd →
    ScanFault source ⟨s, fault⟩
  | unknownEscape {before after : List Char} : source = before ++ '\\' :: after →
    ScanFault source ⟨⟨byteLength before, byteLength before + 2⟩, .unknownEscape⟩

theorem ScanFault.of_holds {source piece : List Char} {s : Span} (h : s.Holds source piece) {fault : SyntaxFault}
    (hescape : fault ≠ .unknownEscape) (hend : fault ≠ .unexpectedEnd) :
    ScanFault source ⟨s, fault⟩ :=
  .within h.within hescape hend

/-! ## Steps -/

/-- How far the tokens of the state can go: up to the pending literal text, or else to the offset. -/
def ScanState.settled (st : ScanState) : Nat :=
  match st.openings with
  | .expression _ :: _ => st.pos
  | _ => st.literalStart

theorem ScanState.settled_of_inText {st : ScanState} (h : st.InText) : st.settled = st.literalStart := by
  rw [settled]
  split
  · next hst => exact absurd hst (h _ _)
  · rfl

theorem ScanState.settled_of_expression (st : ScanState) {offset : Nat} {os : List Opening}
    (h : st.openings = .expression offset :: os) : st.settled = st.pos := by
  rw [settled, h]

theorem ScanState.settled_close (st : ScanState) : st.close.settled = st.close.pos := by
  rw [settled]
  split <;> rfl

/-- A step leaves the state tidy or finds a fault. -/
def StepSound (d : Delimiters) (source : List Char) : Except SyntaxError (ScanState × List Char) → Prop
  | .ok (st, rest) => st.Tidy d source rest st.settled
  | .error e => ScanFault source e

section
variable {source piece cs rest : List Char} {c : Char} {st : ScanState}

theorem stepSound_pass (htext : st.InText) (hpiece : piece ≠ [])
    (h : st.Tidy d source (piece ++ rest) st.literalStart) (literal : List Char) :
    StepSound d source (.ok ({ st with literal, pos := st.pos + byteLength piece }, rest)) := by
  have hsettled : ({ st with literal, pos := st.pos + byteLength piece } : ScanState).settled = st.literalStart :=
    ScanState.settled_of_inText htext
  rw [StepSound, hsettled]
  exact h.pass hpiece literal

/-- The tag of escapes is passed over, or the fault in it is found. -/
theorem stepSound_escapeTag (htext : st.InText) (h : st.Tidy d source (c :: cs) st.literalStart) :
    StepSound d source
      (match escapeTag d.stop st.pos (st.pos + c.utf8Size) [] cs with
      | .ok (found, pos, after) => .ok ({ st with literal := found ++ st.literal, pos := pos }, after)
      | .error e => .error e) := by
  obtain ⟨tag, chars, after, rfl, -, hend⟩ := tagRun_escapeTag d.stop st.pos (st.pos + c.utf8Size) [] cs
  have hbefore : st.pos + c.utf8Size + byteLength tag = st.pos + byteLength (c :: tag) := by
    rw [byteLength_cons, Nat.add_assoc]
  rw [hbefore] at hend
  generalize escapeTag d.stop st.pos (st.pos + c.utf8Size) [] (tag ++ after) = answer at hend
  cases hend with
  | @closed rest hne =>
    have hread : st.Tidy d source (c :: tag ++ [d.stop] ++ rest) st.literalStart := by simpa using h
    have hpos : st.pos + byteLength (c :: tag) + d.stop.utf8Size = st.pos + byteLength (c :: tag ++ [d.stop]) := by
      rw [byteLength_append, Nat.add_assoc]
      rfl
    dsimp only
    rw [hpos]
    exact stepSound_pass htext (List.cons_ne_nil _ _) hread _
  | malformed =>
    have hread : st.Tidy d source (c :: tag ++ after) st.literalStart := h
    exact .of_holds hread.holds nofun nofun
  | @codePoint after =>
    have hread : st.Tidy d source (c :: tag ++ ['\\'] ++ (['u'] ++ after)) st.literalStart := by simpa using h
    have hspan := hread.holds_behind
    rw [byteLength_append, ← Nat.add_assoc] at hspan
    exact .of_holds hspan nofun nofun
  | @unknown after =>
    obtain ⟨before, hsource, hpos⟩ := h.pos
    have hescape : source = before ++ c :: tag ++ '\\' :: after := by rw [hsource, List.append_assoc]; rfl
    rw [← hpos, ← byteLength_append]
    exact .unknownEscape hescape

/-- The comment is passed over, if it ends. -/
theorem stepSound_comment (htext : st.InText) (h : st.Tidy d source (c :: '!' :: cs) st.literalStart) :
    StepSound d source
      (match skipComment d.stop cs with
      | some (bytes, after) => .ok (st.skip (c.utf8Size + 1 + bytes), after)
      | none => .error ⟨⟨st.pos, st.pos + c.utf8Size + 1⟩, .unterminatedComment⟩) := by
  cases hskip : skipComment d.stop cs with
  | none =>
    have hspan : Span.Holds ⟨st.pos, st.pos + byteLength [c, '!']⟩ source [c, '!'] := h.holds
    exact .of_holds hspan nofun nofun
  | some found =>
    obtain ⟨bytes, after⟩ := found
    obtain ⟨body, rfl, rfl⟩ := skipComment_eq_some hskip
    have hread : st.Tidy d source (c :: '!' :: (body ++ ['!', d.stop]) ++ after) st.literalStart := by simpa using h
    have hbytes : c.utf8Size + 1 + byteLength (body ++ ['!', d.stop]) =
        byteLength (c :: '!' :: (body ++ ['!', d.stop])) := Nat.add_assoc ..
    dsimp only
    rw [hbytes]
    exact stepSound_pass htext (List.cons_ne_nil _ _) hread st.literal

theorem stepSound_stepText (htext : st.InText) (h : st.Tidy d source (c :: cs) st.literalStart) :
    StepSound d source (stepText d st c cs) := by
  unfold stepText
  split
  · next hc =>
    rw [beq_iff_eq.1 hc] at h
    split
    · next next rest =>
      split
      · exact stepSound_pass htext (List.cons_ne_nil '\\' [next]) h (next :: st.literal)
      · exact stepSound_pass htext (List.cons_ne_nil '\\' []) h ('\\' :: st.literal)
    · exact stepSound_pass htext (List.cons_ne_nil '\\' []) h ('\\' :: st.literal)
  · split
    · next hc =>
      obtain rfl := beq_iff_eq.1 (Bool.and_eq_true_iff.1 hc).2
      have hbrace : Spells d ['\x7d'] .braceClose := ⟨List.cons_ne_nil _ _, rfl⟩
      rw [StepSound, ScanState.settled_close]
      exact (h.flush.emit hbrace).close
    · split
      · next hc =>
        split
        · exact stepSound_comment htext h
        · exact stepSound_escapeTag htext h
        · obtain rfl := beq_iff_eq.1 hc
          have hstart : Spells d [d.start] .startDelimiter := ⟨List.cons_ne_nil _ _, rfl⟩
          have hspan : Span.Holds ⟨st.pos, st.pos + byteLength [d.start]⟩ source [d.start] := h.holds
          have hopen : ((Opening.expression st.pos).span d).Within source := hspan.within
          exact (h.flush.emit hstart).opened hopen _
      · exact stepSound_pass htext (List.cons_ne_nil c []) h (c :: st.literal)

theorem stepSound_stepExpression {offset : Nat} {os : List Opening} (hst : st.openings = .expression offset :: os)
    (h : st.Tidy d source (c :: cs) st.pos) : StepSound d source (stepExpression d st c cs) := by
  have hspan : Span.Holds ⟨st.pos, st.pos + byteLength [c]⟩ source [c] := h.holds
  unfold stepExpression
  split
  · rw [StepSound, ScanState.settled_of_expression (st.skip c.utf8Size) hst]
    have hskip : (st.skip (byteLength [c])).Tidy d source cs _ := h.skip
    exact hskip
  · split
    · next hc =>
      obtain rfl := beq_iff_eq.1 hc
      have hstop : Spells d [d.stop] .stopDelimiter := ⟨List.cons_ne_nil _ _, rfl⟩
      rw [StepSound, ScanState.settled_close]
      exact (h.emit hstop).close
    · split
      · next hc =>
        obtain rfl := beq_iff_eq.1 hc
        have hbrace : Spells d ['\x7b'] .braceOpen := ⟨List.cons_ne_nil _ _, rfl⟩
        have hemit := h.emit hbrace
        have hopen : ((Opening.braces st.pos).span d).Within source := hspan.within
        dsimp only
        split
        · next tokens p rest hheader => exact (hemit.header hheader).opened hopen p
        · exact hemit.opened hopen _
      · split
        · next token more rest htoken =>
          obtain ⟨rfl, htakes⟩ := takesToken_of_expressionToken? htoken
          rw [StepSound, ScanState.settled_of_expression (st.emit token _) hst]
          exact ScanState.Tidy.emit htakes.spells h
        · exact .of_holds hspan nofun nofun

theorem stepSound_step (h : st.Tidy d source (c :: cs) st.settled) : StepSound d source (step d st c cs) := by
  unfold step
  split
  · next offset os hst =>
    rw [ScanState.settled_of_expression _ hst] at h
    exact stepSound_stepExpression hst h
  · next hst =>
    have htext : st.InText := fun offset os hopen => hst offset os hopen
    rw [ScanState.settled_of_inText htext] at h
    exact stepSound_stepText htext h

end

/-! ## Runs -/

theorem ScanState.tidy_initial (d : Delimiters) (source : List Char) : ({} : ScanState).Tidy d source source 0 where
  pos := ⟨[], rfl, rfl⟩
  openings := nofun
  cut := .nil
  stop_le := nofun
  isPosition := ⟨[], List.nil_prefix, rfl⟩
  bound_le := Nat.le_refl _
  literal hne := absurd rfl hne

/-- A scan cuts the source into tokens or finds a fault. -/
def ScanSound (d : Delimiters) (source : List Char) : Except SyntaxError (List (Located Token)) → Prop
  | .ok tokens => Cut (Spells d) source tokens
  | .error e => ScanFault source e

section
variable {source input : List Char} {st : ScanState}

theorem scanSound_finish (h : st.Tidy d source [] st.settled) : ScanSound d source (finish d st) := by
  unfold finish
  split
  · next hst =>
    have htext : st.InText := by simp [ScanState.InText, hst]
    rw [ScanState.settled_of_inText htext] at h
    exact h.flush.cut
  · next offset os hst =>
    exact .within (h.openings (.expression offset) (by simp [hst])) nofun nofun
  · next offset os hst =>
    exact .within (h.openings (.braces offset) (by simp [hst])) nofun nofun

theorem scanSound_scanFrom (h : st.Tidy d source input st.settled) : ScanSound d source (scanFrom d st input) := by
  fun_induction scanFrom d st input with
  | case1 st => exact scanSound_finish h
  | case2 st c cs st' rest hstep ih =>
    have hsound : StepSound d source (step d st c cs) := stepSound_step h
    rw [hstep] at hsound
    exact ih hsound
  | case3 st c cs e hstep =>
    have hsound : StepSound d source (step d st c cs) := stepSound_step h
    rw [hstep] at hsound
    exact hsound

end

section
variable {source : List Char}

theorem scanSound_scan (d : Delimiters) (source : List Char) : ScanSound d source (scan d source) :=
  scanSound_scanFrom (ScanState.tidy_initial d source)

/-- The tokens of a source are pieces of it, one after the other. -/
theorem cut_of_scan {tokens : List (Located Token)} (h : scan d source = .ok tokens) :
    Cut (Spells d) source tokens := by
  have hsound := scanSound_scan d source
  rwa [h] at hsound

theorem scanFault_of_scan {e : SyntaxError} (h : scan d source = .error e) : ScanFault source e := by
  have hsound := scanSound_scan d source
  rwa [h] at hsound

end

end Stencil.Template
