import Stencil.Proofs.Template.ScanSpans
import Stencil.Proofs.Template.Soundness

/-!
# Where errors of templates stand

The parser reports an error at the end of the source or at tokens (`Tracks`), and the scanner cuts the source into
tokens, so that the span of an error is within the source. There are two exceptions: the span of an escape without
meaning has one byte behind the backslash whatever stands there, and that of an end that comes too early goes from
the end of the source back to its last token.

Main statement: `error_span_within_iff`.
-/

namespace Stencil.Template

variable {d : Delimiters} {eof : Span} {all : List Lexeme}

/-! ## Expressions without targets -/

theorem at_unexpected {ts : List Lexeme} (h : ts <:+ all) : (unexpected eof ts).At eof all :=
  .unexpected (fun _ => by simp) (fun _ => by simp) h

section
variable {ts : List Lexeme} (h : ts <:+ all)
include h

theorem tracks_segments : Tracks eof all (segments eof ts) := by
  fun_induction segments eof ts with
  | case1 dot name place r ih =>
    have hr := suffix_of_cons (suffix_of_cons h)
    exact (ih hr).bind fun segs rest hle _ hrest => .ok hrest
  | case2 dot n place r ih =>
    have hr := suffix_of_cons (suffix_of_cons h)
    exact (ih hr).bind fun segs rest hle _ hrest => .ok hrest
  | case3 => exact .error (at_unexpected (suffix_of_cons h))
  | case4 r => exact .ok h

theorem tracks_argument : Tracks eof all (argument eof ts) := by
  unfold argument
  split
  · exact .ok (suffix_of_cons h)
  · exact (tracks_segments (suffix_of_cons h)).bind fun _ _ _ _ hrest => .ok hrest
  · exact .error (at_unexpected h)

theorem tracks_furtherArguments : Tracks eof all (furtherArguments eof ts) := by
  fun_induction furtherArguments eof ts with
  | case1 place r => exact .ok (suffix_of_cons h)
  | case2 place r ih =>
    refine (tracks_argument (suffix_of_cons h)).bind fun a after hle _ hafter => ?_
    exact (ih after hle hafter).bind fun _ _ _ _ hrest => .ok hrest
  | case3 => exact .error (at_unexpected h)

theorem tracks_arguments : Tracks eof all (arguments eof ts) := by
  unfold arguments
  split
  · exact .ok (suffix_of_cons h)
  · refine (tracks_argument h).bind fun a after hle _ hafter => ?_
    exact (tracks_furtherArguments hafter).bind fun _ _ _ _ hrest => .ok hrest

theorem tracks_primary : Tracks eof all (primary eof ts) := by
  unfold primary
  split
  · next name place paren r =>
    have hparen := suffix_of_cons h
    refine (tracks_arguments (suffix_of_cons hparen)).bind fun args rest hle _ hrest => ?_
    dsimp only
    split
    · exact .ok hrest
    · exact .ok hrest
    · exact .error (.token hparen nofun nofun)
  · exact (tracks_segments (suffix_of_cons h)).bind fun _ _ _ _ hrest => .ok hrest
  · exact .error (at_unexpected h)

end

/-! ## Options -/

theorem ofEntry_eq_error {key : String} {value : Option Token} {fault : SyntaxFault}
    (h : Setting.ofEntry key value = .error fault) : fault ≠ .unknownEscape ∧ fault ≠ .unexpectedEnd := by
  unfold Setting.ofEntry at h
  split at h
  case h_6 =>
    split at h
    · cases h
    · cases h
      exact ⟨nofun, nofun⟩
  all_goals
    cases h
    try exact ⟨nofun, nofun⟩

/-- What is known of the places in a list of settings: each ends where a token ends, and the rest or the fault is
among the tokens. -/
structure SettingsTrack (eof : Span) (all ts : List Lexeme)
    (read : List (Setting × Nat) × Except SyntaxError { rest : List Lexeme // rest.length ≤ ts.length }) : Prop where
  stops : ∀ x ∈ read.1, ∃ last ∈ ts, last.span.stop = x.2
  rest : ∀ after, read.2 = .ok after → after.1 <:+ all
  fails : FailsOnly (SyntaxError.At eof all) read.2

namespace SettingsTrack
variable {ts : List Lexeme}

theorem error {e : SyntaxError} (h : e.At eof all) : SettingsTrack eof all ts ([], .error e) :=
  ⟨nofun, nofun, .error h⟩

theorem last {t : Lexeme} (ht : t ∈ ts) (s : Setting) {rest : List Lexeme} (hle : rest.length ≤ ts.length)
    (h : rest <:+ all) : SettingsTrack eof all ts ([(s, t.span.stop)], .ok ⟨rest, hle⟩) := by
  refine ⟨List.forall_mem_singleton.2 ⟨t, ht, rfl⟩, ?_, .ok _⟩
  rintro _ ⟨⟩
  exact h

theorem last_error {t : Lexeme} (ht : t ∈ ts) (s : Setting) {e : SyntaxError} (h : e.At eof all) :
    SettingsTrack eof all ts ([(s, t.span.stop)], .error e) :=
  ⟨List.forall_mem_singleton.2 ⟨t, ht, rfl⟩, nofun, .error h⟩

theorem cons {t : Lexeme} (ht : t ∈ ts) (s : Setting) {r : List Lexeme} (hr : r ⊆ ts)
    {more : List (Setting × Nat)} {after : Except SyntaxError { rest : List Lexeme // rest.length ≤ r.length }}
    (h : SettingsTrack eof all r (more, after))
    {f : { rest : List Lexeme // rest.length ≤ r.length } → { rest : List Lexeme // rest.length ≤ ts.length }}
    (hf : ∀ x, (f x).1 = x.1) : SettingsTrack eof all ts ((s, t.span.stop) :: more, after.map f) := by
  refine ⟨List.forall_mem_cons.2 ⟨⟨t, ht, rfl⟩, fun x hx => ?_⟩, fun rest hrest => ?_, fun e he => ?_⟩
  · obtain ⟨last, hlast, hstop⟩ := h.stops x hx
    exact ⟨last, hr hlast, hstop⟩
  · obtain ⟨x, hx, rfl⟩ := map_eq_ok.1 hrest
    rw [hf]
    exact h.rest x hx
  · exact h.fails e (map_eq_error.1 he)

end SettingsTrack

theorem settingsTrack_settings {ts : List Lexeme} (h : ts <:+ all) :
    SettingsTrack eof all ts (settings eof ts) := by
  fun_induction settings eof ts with
  | case1 key k e v p r hv fault hentry =>
    obtain ⟨hescape, hend⟩ := ofEntry_eq_error hentry
    have hlast : (⟨v, p⟩ : Lexeme) ∈ ⟨.word key, k⟩ :: ⟨.equals, e⟩ :: ⟨v, p⟩ :: r := by simp
    exact .error (.tokens h hlast hescape hend)
  | case2 key k e v p hv s hentry comma r more after hread ih =>
    have hmore := ih (suffix_of_cons (suffix_of_cons (suffix_of_cons (suffix_of_cons h))))
    rw [hread] at hmore
    exact .cons (t := ⟨v, p⟩) (by simp) s (fun x hx => by simp [hx]) hmore fun _ => rfl
  | case3 key k e v p hv s hentry r _ =>
    exact .last (t := ⟨v, p⟩) (by simp) s _ (suffix_of_cons (suffix_of_cons (suffix_of_cons h)))
  | case4 key k e v p r hv fault hentry =>
    obtain ⟨hescape, hend⟩ := ofEntry_eq_error hentry
    exact .error (.token h hescape hend)
  | case5 key k e v p r hv s hentry =>
    exact .last_error (t := ⟨.word key, k⟩) (by simp) s (at_unexpected (suffix_of_cons (suffix_of_cons h)))
  | case6 key k e fault hentry =>
    obtain ⟨hescape, hend⟩ := ofEntry_eq_error hentry
    exact .error (.token h hescape hend)
  | case7 key k e s hentry =>
    exact .last_error (t := ⟨.word key, k⟩) (by simp) s (at_unexpected (suffix_of_cons (suffix_of_cons h)))
  | case8 key k r _ fault hentry =>
    obtain ⟨hescape, hend⟩ := ofEntry_eq_error hentry
    exact .error (.token h hescape hend)
  | case9 key k s hentry comma r more after hread _ ih =>
    have hmore := ih (suffix_of_cons (suffix_of_cons h))
    rw [hread] at hmore
    exact .cons (t := ⟨.word key, k⟩) (by simp) s (fun x hx => by simp [hx]) hmore fun _ => rfl
  | case10 key k s hentry r _ _ => exact .last (t := ⟨.word key, k⟩) (by simp) s _ (suffix_of_cons h)
  | case11 => exact .error (at_unexpected h)

theorem tracks_options {ts : List Lexeme} (h : ts <:+ all) : Tracks eof all (options eof ts) := by
  unfold options
  split
  · next semicolon r =>
    have hr := suffix_of_cons h
    have hsettings : SettingsTrack eof all r (settings eof r) := settingsTrack_settings hr
    generalize settings eof r = read at hsettings ⊢
    obtain ⟨found, after⟩ := read
    dsimp only
    split
    · next key _ =>
      refine .error ?_
      cases hlast : found.getLast? with
      | none => exact .token h nofun nofun
      | some x =>
        -- The fault goes from the semicolon to the end of the last setting.
        obtain ⟨last, hmem, hstop⟩ := hsettings.stops x (List.mem_of_getLast? hlast)
        rw [Option.map_some, Option.getD_some, ← hstop]
        exact .tokens h (List.mem_cons_of_mem _ hmem) nofun nofun
    · next e hrepeated => exact .error (hsettings.fails e rfl)
    · next rest hle hrepeated => exact .ok (hsettings.rest _ rfl)
  · exact .ok h

/-! ## Nodes and targets -/

section
variable {ts : List Lexeme} (h : ts <:+ all)
include h

theorem tracks_furtherParameters : Tracks eof all (furtherParameters eof ts) := by
  fun_induction furtherParameters eof ts with
  | case1 => exact .ok (suffix_of_cons (suffix_of_cons h))
  | case2 name word comma r ih =>
    exact (ih (suffix_of_cons (suffix_of_cons h))).bind fun _ _ _ _ hrest => .ok hrest
  | case3 => exact .error (at_unexpected (suffix_of_cons h))
  | case4 => exact .error (at_unexpected h)

theorem tracks_parameters : Tracks eof all (parameters eof ts) := by
  unfold parameters
  split
  · exact tracks_furtherParameters h
  · exact .ok h

theorem tracks_regionHead : Tracks eof all (regionHead eof ts) := by
  unfold regionHead
  split
  · exact .ok (suffix_of_cons (suffix_of_cons h))
  · exact .ok (suffix_of_cons (suffix_of_cons (suffix_of_cons (suffix_of_cons h))))
  · exact .error (at_unexpected (suffix_of_cons (suffix_of_cons (suffix_of_cons h))))
  · exact .error (at_unexpected (suffix_of_cons (suffix_of_cons h)))
  · exact .error (at_unexpected (suffix_of_cons h))
  · exact .error (at_unexpected h)

theorem tracks_regionEnd : Tracks eof all (regionEnd eof ts) := by
  unfold regionEnd
  split
  · exact .ok (suffix_of_cons (suffix_of_cons (suffix_of_cons (suffix_of_cons h))))
  · exact .error (at_unexpected (suffix_of_cons (suffix_of_cons (suffix_of_cons h))))
  · exact .error (at_unexpected h)

theorem at_unexpectedAfterNodes : (unexpectedAfterNodes eof ts).At eof all := by
  unfold unexpectedAfterNodes
  split
  · exact .token (suffix_of_cons (suffix_of_cons h)) nofun nofun
  · exact at_unexpected h

end

mutual

theorem tracks_nodes {all ts : List Lexeme} (h : ts <:+ all) : Tracks eof all (nodes eof ts) := by
  -- The induction is on the number of tokens. Its hypotheses are stated here, where `ts` has not been split yet.
  have hnodes := fun r (_ : r.length < ts.length) (hr : r <:+ all) => tracks_nodes hr
  have htargets := fun r (_ : r.length < ts.length) (hr : r <:+ all) => tracks_targets hr
  unfold nodes
  split
  · next text place r =>
    exact (hnodes r (by simp) (suffix_of_cons h)).bind fun _ _ _ _ hrest => .ok hrest
  · exact .ok h
  · next start sign r _ =>
    refine (tracks_regionHead (suffix_of_cons (suffix_of_cons h))).bind fun head r₁ hle₁ _ h₁ => ?_
    cases head with
    | slot name stop => exact (hnodes r₁ (by simp; omega) h₁).bind fun _ _ _ _ hrest => .ok hrest
    | block name =>
      refine (hnodes r₁ (by simp; omega) h₁).bind fun body r₂ hle₂ _ h₂ => ?_
      refine (tracks_regionEnd h₂).bind fun stop r₃ hle₃ _ h₃ => ?_
      exact (hnodes r₃ (by simp; omega) h₃).bind fun _ _ _ _ hrest => .ok hrest
  · next start r _ _ =>
    refine (tracks_primary (suffix_of_cons h)).bind fun p r₁ hle₁ _ h₁ => ?_
    refine (htargets r₁ (by simp; omega) h₁).bind fun ts' r₂ hle₂ _ h₂ => ?_
    refine (tracks_options h₂).bind fun o r₃ hle₃ _ h₃ => ?_
    dsimp only
    split
    · next stop r₄ _ =>
      exact (hnodes r₄ (by simp at hle₃ ⊢; omega) (suffix_of_cons h₃)).bind fun _ _ _ _ hrest => .ok hrest
    · exact .error (at_unexpected h₃)
  · exact .ok h
termination_by ts.length
decreasing_by all_goals assumption

theorem tracks_targets {all ts : List Lexeme} (h : ts <:+ all) : Tracks eof all (targets eof ts) := by
  have hnodes := fun all r (_ : r.length < ts.length) (hr : r <:+ all) => tracks_nodes hr
  have htargets := fun all r (_ : r.length < ts.length) (hr : r <:+ all) => tracks_targets hr
  unfold targets
  split
  · next colon brace r =>
    -- Among the tokens from the brace on, so that the closing brace is known to be behind it.
    refine Tracks.mono ?_ (suffix_of_cons h)
    have hbrace : (⟨.braceOpen, brace⟩ : Lexeme) :: r <:+ ⟨.braceOpen, brace⟩ :: r := List.suffix_rfl
    refine (tracks_parameters (suffix_of_cons hbrace)).bind fun params r₁ hle₁ _ h₁ => ?_
    refine (hnodes _ r₁ (by simp; omega) h₁).bind fun body r₂ hle₂ _ h₂ => ?_
    dsimp only
    split
    · next brace' r₃ _ =>
      split
      · exact .error (.tokens hbrace (h₂.subset List.mem_cons_self) nofun nofun)
      · exact (htargets _ r₃ (by simp at hle₂ ⊢; omega) (suffix_of_cons h₂)).bind fun _ _ _ _ hrest => .ok hrest
    · exact .error (at_unexpectedAfterNodes h₂)
  · next colon name word paren paren' r =>
    have hr := suffix_of_cons (suffix_of_cons (suffix_of_cons (suffix_of_cons h)))
    exact (htargets _ r (by simp; omega) hr).bind fun _ _ _ _ hrest => .ok hrest
  · exact .error (at_unexpected (suffix_of_cons (suffix_of_cons (suffix_of_cons h))))
  · exact .error (at_unexpected (suffix_of_cons (suffix_of_cons h)))
  · exact .error (at_unexpected (suffix_of_cons h))
  · exact .ok h
termination_by ts.length
decreasing_by all_goals assumption

end

/-! ## Templates -/

theorem failsOnly_parseTokens (eof : Span) (ts : List Lexeme) :
    FailsOnly (SyntaxError.At eof ts) (parseTokens eof ts) := by
  refine (tracks_nodes List.suffix_rfl).failsOnly_bind fun found rest hle _ hrest => ?_
  cases rest with
  | nil => exact .ok found
  | cons t rest => exact .error (at_unexpectedAfterNodes hrest)

/-- What is known of the places of errors: the scanner finds them, or the parser at tokens. -/
theorem error_cases {source : List Char} {e : SyntaxError}
    (h : scan d source = .error e ∨ parse d source = .error e) :
    ScanFault source e ∨
      ∃ tokens, Cut (Spells d) source tokens ∧ e.At (endOfInput (byteLength source) tokens) tokens := by
  rcases h with h | h
  · exact .inl (scanFault_of_scan h)
  · rw [parse] at h
    cases hscan : scan d source with
    | error e' =>
      rw [hscan] at h
      cases h
      exact .inl (scanFault_of_scan hscan)
    | ok tokens =>
      rw [hscan] at h
      exact .inr ⟨tokens, cut_of_scan hscan, failsOnly_parseTokens _ tokens e h⟩

/-- Errors start at positions of the source, whether or not their spans are within it. -/
theorem isPosition_of_error {source : List Char} {e : SyntaxError}
    (h : scan d source = .error e ∨ parse d source = .error e) : IsPosition source e.span.start := by
  rcases error_cases h with h | ⟨tokens, hcut, h⟩
  · cases h with
    | within hwithin => exact hwithin.start
    | unknownEscape hsource =>
      rw [hsource]
      exact .of_append ..
  · cases h with
    | atEnd => exact isPosition_byteLength source
    | tokens hfirst hlast => exact (hcut.within hfirst hlast).start

/-- An escape without meaning is within the source if a character of one byte is behind its backslash. -/
theorem within_escape_iff {before after : List Char} :
    Span.Within ⟨byteLength before, byteLength before + 2⟩ (before ++ '\\' :: after) ↔
      ∃ c rest, after = c :: rest ∧ c.utf8Size = 1 := by
  rw [← exists_holds_iff]
  constructor
  · rintro ⟨piece, before', after', hsource, hspan⟩
    rw [Span.mk.injEq] at hspan
    obtain ⟨hstart, hstop⟩ := hspan
    obtain ⟨rfl, hpiece⟩ := append_inj_of_byteLength hsource hstart
    have hbytes : byteLength piece = 2 := by omega
    have hescape : '\\'.utf8Size = 1 := rfl
    -- The piece is the backslash and one byte more.
    cases piece with
    | nil => cases hbytes
    | cons x piece =>
      obtain ⟨rfl, rfl⟩ := List.cons.inj hpiece
      rw [byteLength_cons, hescape] at hbytes
      cases piece with
      | nil => cases hbytes
      | cons c piece =>
        have := c.utf8Size_pos
        rw [byteLength_cons] at hbytes
        exact ⟨c, piece ++ after', rfl, by omega⟩
  · rintro ⟨c, rest, rfl, hc⟩
    refine ⟨['\\', c], before, rest, rfl, ?_⟩
    rw [byteLength_cons, byteLength_cons, hc]
    rfl

/-- **The span of an error is within the source, with two exceptions.** An escape without meaning is within it just if
a character of one byte is behind the backslash, and an end that comes too early just if the last token ends there;
every other error is. -/
theorem error_span_within_iff {source : List Char} {e : SyntaxError}
    (h : scan d source = .error e ∨ parse d source = .error e) :
    e.span.Within source ↔
      (e.fault = .unknownEscape → ∃ before c after, source = before ++ '\\' :: c :: after ∧
        e.span.start = byteLength before ∧ c.utf8Size = 1) ∧
      (e.fault = .unexpectedEnd → e.span.stop = byteLength source) := by
  rcases error_cases h with h | ⟨tokens, hcut, h⟩
  · cases h with
    | within hwithin hescape hend =>
      exact iff_of_true hwithin ⟨fun he => absurd he hescape, fun he => absurd he hend⟩
    | @unknownEscape before after hsource =>
      subst hsource
      rw [within_escape_iff]
      constructor
      · rintro ⟨c, rest, rfl, hc⟩
        exact ⟨fun _ => ⟨before, c, rest, rfl, rfl, hc⟩, nofun⟩
      · rintro ⟨hescape, -⟩
        obtain ⟨before', c, rest, hsource, hstart, hc⟩ := hescape rfl
        obtain ⟨-, hafter⟩ := append_inj_of_byteLength hsource hstart
        exact ⟨c, rest, (List.cons.inj hafter).2, hc⟩
  · cases h with
    | atEnd =>
      constructor
      · intro hwithin
        exact ⟨nofun, fun _ => Nat.le_antisymm hwithin.stop_le hwithin.start_le⟩
      · rintro ⟨-, hend⟩
        have hstop := hend rfl
        refine ⟨Nat.le_of_eq hstop.symm, Nat.le_of_eq hstop, isPosition_byteLength source, ?_⟩
        rw [hstop]
        exact isPosition_byteLength source
    | tokens hfirst hlast hescape hend =>
      exact iff_of_true (hcut.within hfirst hlast) ⟨fun he => absurd he hescape, fun he => absurd he hend⟩

/-- An expression that is not closed, behind a character of two bytes. -/
theorem error_span_within_expression :
    parse {} "é<x".toList = .error ⟨⟨2, 3⟩, .unterminatedExpression '>'⟩ ∧
      Span.Within ⟨2, 3⟩ "é<x".toList := by
  have herror : parse {} "é<x".toList = .error ⟨⟨2, 3⟩, .unterminatedExpression '>'⟩ :=
    map_eq_error.1 (show (parse {} "é<x".toList).map (fun _ => ()) = _ by decide +kernel)
  exact ⟨herror, (error_span_within_iff (.inr herror)).2 ⟨nofun, nofun⟩⟩

/-- A backslash at the end, one before a character of two bytes, and a comment behind an open region. -/
theorem error_span_beyond :
    (scan {} "<\\".toList = .error ⟨⟨1, 3⟩, .unknownEscape⟩ ∧ ¬ Span.Within ⟨1, 3⟩ "<\\".toList) ∧
    (scan {} "<\\é>".toList = .error ⟨⟨1, 3⟩, .unknownEscape⟩ ∧ ¬ Span.Within ⟨1, 3⟩ "<\\é>".toList) ∧
    (parse {} "<@r><! c !>".toList = .error ⟨⟨11, 4⟩, .unexpectedEnd⟩ ∧
      ¬ Span.Within ⟨11, 4⟩ "<@r><! c !>".toList) := by
  refine ⟨⟨by decide +kernel, fun h => ?_⟩, ⟨by decide +kernel, fun h => ?_⟩, ?_, fun h => ?_⟩
  · exact absurd h.stop_le (by decide)
  · have hwithin : Span.Within ⟨byteLength ['<'], byteLength ['<'] + 2⟩ (['<'] ++ '\\' :: ['é', '>']) := h
    obtain ⟨c, rest, hafter, hc⟩ := within_escape_iff.1 hwithin
    cases hafter
    exact absurd hc (by decide)
  · exact map_eq_error.1 (show (parse {} "<@r><! c !>".toList).map (fun _ => ()) = _ by decide +kernel)
  · exact absurd h.start_le (by decide)

end Stencil.Template
