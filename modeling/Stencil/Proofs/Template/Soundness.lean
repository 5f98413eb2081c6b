import Stencil.Proofs.Template.Completeness

/-!
# The parser reads nothing else

What the parser reads is written by the tokens that it takes (`recognizes_nodes`, `recognizes_targets`).
With what it reads of all that the grammar derives, this makes the grammar exactly the templates that it
accepts (`parseTokens_eq_ok_iff`).
-/

namespace Stencil.Template

variable (eof : Span)

/-! ## Expressions without targets -/

theorem recognizes_segments (ts : List Lexeme) :
    Recognizes (segments eof ts) fun us segs => us = segs.flatMap Segment.tokens := by
  fun_induction segments eof ts with
  | case1 dot name place r ih =>
    refine ih.bind fun segs _ _ us htokens hus => .ok (.dot :: .word name :: us) ?_ ?_
    · simp [htokens]
    · simp [hus, Segment.tokens]
  | case2 dot n place r ih =>
    refine ih.bind fun segs _ _ us htokens hus => .ok (.dot :: .int n :: us) ?_ ?_
    · simp [htokens]
    · simp [hus, Segment.tokens]
  | case3 => exact .error _
  | case4 r => exact .ok [] rfl rfl

theorem recognizes_argument (ts : List Lexeme) :
    Recognizes (argument eof ts) fun us a => us = a.tokens := by
  unfold argument
  split
  · next text place r => exact .ok [.str text] rfl rfl
  · next name place r =>
    refine (recognizes_segments eof r).bind fun segs _ _ us htokens hus => .ok (.word name :: us) ?_ ?_
    · simp [htokens]
    · rw [hus]
      rfl
  · exact .error _

theorem recognizes_furtherArguments (ts : List Lexeme) :
    Recognizes (furtherArguments eof ts) fun us args => us = Argument.furtherTokens args := by
  fun_induction furtherArguments eof ts with
  | case1 place r => exact .ok [.parenClose] rfl rfl
  | case2 place r ih =>
    refine (recognizes_argument eof r).bind fun a after hle us htokens hus => ?_
    refine (ih after hle).bind fun more _ _ vs hmore hvs => .ok (.comma :: (us ++ vs)) ?_ ?_
    · simp [htokens, hmore]
    · rw [hus, hvs]
      rfl
  | case3 => exact .error _

theorem recognizes_arguments (ts : List Lexeme) :
    Recognizes (arguments eof ts) fun us args => us = Argument.tokensAll args := by
  unfold arguments
  split
  · exact .ok [.parenClose] rfl rfl
  · refine (recognizes_argument eof ts).bind fun a after hle us htokens hus => ?_
    refine (recognizes_furtherArguments eof after).bind fun more _ _ vs hmore hvs => .ok (us ++ vs) ?_ ?_
    · simp [htokens, hmore]
    · rw [hus, hvs]
      rfl

theorem name_of_ofName? {name : String} {fn : ListFunction} (h : ListFunction.ofName? name = some fn) :
    fn.name = name := by
  have hfound := List.find?_some h
  exact eq_of_beq hfound

theorem recognizes_primary (ts : List Lexeme) :
    Recognizes (primary eof ts) fun us p => IsPrimary us (p.map fun _ => ()) := by
  unfold primary
  split
  · next name place paren r =>
    refine (recognizes_arguments eof r).bind fun args rest hle us htokens hus => ?_
    dsimp only
    split
    · next hname =>
      refine .ok (.word name :: .parenOpen :: us) ?_ ?_
      · simp [htokens]
      · rw [hus]
        exact isPrimary_call (ofName?_eq_none_iff.1 hname) _
    · next fn a hname =>
      refine .ok (.word name :: .parenOpen :: us) ?_ ?_
      · simp [htokens]
      · rw [hus, ← name_of_ofName? hname]
        exact isPrimary_function fn a
    · exact .error _
  · next name place r _ =>
    refine (recognizes_segments eof r).bind fun segs _ _ us htokens hus => .ok (.word name :: us) ?_ ?_
    · simp [htokens]
    · rw [hus]
      exact .path ⟨name, (), segs⟩
  · exact .error _

/-! ## Options -/

theorem ofEntry_eq_ok {key : String} {value : Option Token} {s : Setting} (h : Setting.ofEntry key value = .ok s) :
    s.Positive ∧ s.tokens = .word key :: value.elim [] ([.equals, ·]) := by
  unfold Setting.ofEntry at h
  split at h
  · next text =>
    cases h
    exact ⟨nofun, rfl⟩
  · cases h
  · next text =>
    cases h
    exact ⟨nofun, rfl⟩
  · cases h
  · cases h
    exact ⟨nofun, rfl⟩
  · next n =>
    split at h
    · next hn =>
      cases h
      refine ⟨fun m hm => ?_, rfl⟩
      cases hm
      exact hn
    · cases h
  · cases h
  · cases h
    exact ⟨nofun, rfl⟩
  · cases h
  · cases h

/-- The tokens are those of the settings, of which there is one at least, and `rest`. -/
structure Settings (found : List Setting) (tokens rest : List Token) : Prop where
  ne_nil : found ≠ []
  positive : ∀ s ∈ found, s.Positive
  tokens_eq : tokens = Setting.tokensAll found ++ rest

section
variable {key : String} {value : Option Token} {s : Setting} (hentry : Setting.ofEntry key value = .ok s)
include hentry

theorem Settings.single (rest : List Token) :
    Settings [s] (.word key :: value.elim [] ([.equals, ·]) ++ rest) rest := by
  obtain ⟨hs, htokens⟩ := ofEntry_eq_ok hentry
  exact ⟨List.cons_ne_nil _ _, List.forall_mem_singleton.2 hs, by rw [← htokens]; rfl⟩

theorem Settings.cons {found : List Setting} {tokens rest : List Token} (h : Settings found tokens rest) :
    Settings (s :: found) (.word key :: value.elim [] ([.equals, ·]) ++ .comma :: tokens) rest := by
  obtain ⟨hs, htokens⟩ := ofEntry_eq_ok hentry
  refine ⟨List.cons_ne_nil _ _, List.forall_mem_cons.2 ⟨hs, h.positive⟩, ?_⟩
  obtain ⟨s', found, rfl⟩ := List.exists_cons_of_ne_nil h.ne_nil
  rw [← htokens, h.tokens_eq, ← List.cons_append, ← List.append_assoc]
  rfl

end

/-- A list of settings that is read to its end without a fault. -/
theorem settings_of_ok (ts : List Lexeme) : ∀ found after, settings eof ts = (found, .ok after) →
    Settings (found.map (·.1)) (ts.map (·.token)) (after.1.map (·.token)) := by
  fun_induction settings eof ts with
  | case1 => rintro found after ⟨⟩
  | case2 key k e v p hv s hentry comma r more after hread ih =>
    rintro found stop h
    cases after with
    | error e => cases h
    | ok after =>
      cases h
      exact .cons hentry (ih more after hread)
  | case3 key k e v p hv s hentry r _ =>
    rintro found after ⟨⟩
    exact .single hentry (r.map (·.token))
  | case4 => rintro found after ⟨⟩
  | case5 => rintro found after ⟨⟩
  | case6 => rintro found after ⟨⟩
  | case7 => rintro found after ⟨⟩
  | case8 => rintro found after ⟨⟩
  | case9 key k s hentry comma r more after hread _ ih =>
    rintro found stop h
    cases after with
    | error e => cases h
    | ok after =>
      cases h
      exact .cons hentry (ih more after hread)
  | case10 key k s hentry r _ _ =>
    rintro found after ⟨⟩
    exact .single hentry (r.map (·.token))
  | case11 => rintro found after ⟨⟩

theorem recognizes_options (ts : List Lexeme) : Recognizes (options eof ts) IsOptions := by
  unfold options
  split
  · next semicolon r =>
    rcases hread : settings eof r with ⟨found, after⟩
    dsimp only
    split
    · exact .error _
    · exact .error _
    · next rest hle hrepeated =>
      obtain ⟨hne, hpositive, htokens⟩ := settings_of_ok eof r found _ hread
      have hnodup := (repeated?_eq_none_iff.1 hrepeated).1
      refine .ok (.semicolon :: Setting.tokensAll (found.map (·.1))) ?_ ?_
      · simp [htokens]
      · rw [Setting.tokensAll_eq]
        exact .settings hne hpositive hnodup ((Options.foldl_apply_eq_iff hnodup).1 rfl)
  · exact .ok [] rfl .empty

/-! ## Nodes and targets -/

theorem recognizes_furtherParameters (ts : List Lexeme) :
    Recognizes (furtherParameters eof ts) fun us params => params ≠ [] ∧ us = parameterTokens params := by
  fun_induction furtherParameters eof ts with
  | case1 name word pipe r => exact .ok [.word name, .pipe] rfl ⟨List.cons_ne_nil _ _, rfl⟩
  | case2 name word comma r ih =>
    refine ih.bind fun more _ _ us htokens hus => .ok (.word name :: .comma :: us) ?_ ⟨List.cons_ne_nil _ _, ?_⟩
    · simp [htokens]
    · obtain ⟨q, params, hparams⟩ := List.exists_cons_of_ne_nil hus.1
      rw [hus.2, hparams]
      rfl
  | case3 => exact .error _
  | case4 => exact .error _

theorem recognizes_parameters (ts : List Lexeme) :
    Recognizes (parameters eof ts) fun us params => us = parameterTokens params := by
  unfold parameters
  split
  · intro parsed hread
    obtain ⟨us, htokens, -, hus⟩ := recognizes_furtherParameters eof _ parsed hread
    exact ⟨us, htokens, hus⟩
  · exact .ok [] rfl rfl

/-- The tokens of a region's tag, without the delimiter and the at sign that open it. -/
def RegionHead.tokens : RegionHead → List Token
  | .slot name _ => [.word name, .parenOpen, .parenClose, .stopDelimiter]
  | .block name => [.word name, .stopDelimiter]

theorem recognizes_regionHead (ts : List Lexeme) :
    Recognizes (regionHead eof ts) fun us head => us = head.tokens := by
  unfold regionHead
  split
  · exact .ok _ rfl rfl
  · exact .ok _ rfl rfl
  all_goals exact .error _

theorem recognizes_regionEnd (ts : List Lexeme) :
    Recognizes (regionEnd eof ts) fun us _ =>
      us = [.startDelimiter, .atSign, .word "end", .stopDelimiter] := by
  unfold regionEnd
  split
  · exact .ok _ rfl rfl
  all_goals exact .error _

mutual

/-- The nodes that the parser reads are written by the tokens that it takes. -/
theorem recognizes_nodes (ts : List Lexeme) :
    Recognizes (nodes eof ts) fun us ns => IsNodes us (Node.eraseAll ns) := by
  -- The induction is on the number of tokens. Its hypotheses are stated here, where `ts` has not been split yet.
  have hnodes := fun r (_ : r.length < ts.length) => recognizes_nodes r
  have htargets := fun r (_ : r.length < ts.length) => recognizes_targets r
  unfold nodes
  split
  · next text place r =>
    refine (hnodes r (by simp)).bind fun more _ _ us htokens hmore => .ok (.text text :: us) ?_ ?_
    · simp [htokens]
    · exact .cons (.literal text) hmore
  · exact .ok [] rfl .nil
  · next start sign r hend =>
    refine (recognizes_regionHead eof r).bind fun head r₁ hle₁ us htokens hus => ?_
    -- With the name `end` it would be the tag that closes a region.
    have hname : ∀ name, us.head? = some (.word name) → name ≠ "end" := by
      rintro _ hhead rfl
      obtain ⟨more, rfl⟩ := List.head?_eq_some_iff.1 hhead
      obtain ⟨place, r', rfl, -⟩ := exists_located htokens
      exact hend place r' rfl
    cases head with
    | slot name stop =>
      subst hus
      refine (hnodes r₁ (by simp; omega)).bind fun more _ _ vs hmore hvs =>
        .ok _ ?_ (.cons (.slot (hname name rfl)) hvs)
      simp [htokens, hmore, RegionHead.tokens]
    | block name =>
      subst hus
      refine (hnodes r₁ (by simp; omega)).bind fun body r₂ hle₂ vs hbody hvs => ?_
      refine (recognizes_regionEnd eof r₂).bind fun stop r₃ hle₃ ws hstop hws => ?_
      subst hws
      refine (hnodes r₃ (by simp; omega)).bind fun more _ _ ms hmore hms =>
        .ok _ ?_ (.cons (.region (hname name rfl) hvs) hms)
      simp [htokens, hbody, hstop, hmore, RegionHead.tokens]
  · next start r _ _ =>
    refine (recognizes_primary eof r).bind fun p r₁ hle₁ us hp hus => ?_
    refine (htargets r₁ (by simp; omega)).bind fun ts' r₂ hle₂ vs hts hvs => ?_
    refine (recognizes_options eof r₂).bind fun o r₃ hle₃ ws ho hws => ?_
    dsimp only
    split
    · next stop r₄ =>
      refine (hnodes r₄ (by simp at hle₃ ⊢; omega)).bind fun more _ _ ms hmore hms =>
        .ok _ ?_ (.cons (.expression hus hvs hws) hms)
      simp [hp, hts, ho, hmore]
    · exact .error _
  · exact .ok [] rfl .nil
termination_by ts.length
decreasing_by all_goals assumption

/-- The targets that the parser reads are written by the tokens that it takes. -/
theorem recognizes_targets (ts : List Lexeme) :
    Recognizes (targets eof ts) fun us found => IsTargets us (Target.mapAll (fun _ => ()) id found) := by
  have hnodes := fun r (_ : r.length < ts.length) => recognizes_nodes r
  have htargets := fun r (_ : r.length < ts.length) => recognizes_targets r
  unfold targets
  split
  · next colon brace r =>
    refine (recognizes_parameters eof r).bind fun params r₁ hle₁ us hparams hus => ?_
    subst hus
    refine (hnodes r₁ (by simp; omega)).bind fun body r₂ hle₂ vs hbody hvs => ?_
    dsimp only
    split
    · next brace' r₃ =>
      split
      · exact .error _
      · next hcount =>
        refine (htargets r₃ (by simp at hle₂ ⊢; omega)).bind fun more _ _ ms hmore hms =>
          .ok _ ?_ (.cons (.anonymous (Nat.not_lt.1 hcount) hvs) hms)
        simp [hparams, hbody, hmore]
    · exact .error _
  · next colon name word paren paren' r =>
    refine (htargets r (by simp; omega)).bind fun more _ _ us htokens hmore => .ok _ ?_ (.cons (.named name) hmore)
    simp [htokens]
  · exact .error _
  · exact .error _
  · exact .error _
  · exact .ok [] rfl .nil
termination_by ts.length
decreasing_by all_goals assumption

end

/-! ## Templates -/

/-- **The grammar is exactly what the parser accepts.** The parser reads tokens as the nodes if and only if
they are a way to write these nodes, up to places. -/
theorem parseTokens_eq_ok_iff (ts : List Lexeme) (ns : List (Node Unit)) :
    (parseTokens eof ts).map Node.eraseAll = .ok ns ↔ IsNodes (ts.map (·.token)) ns := by
  constructor
  · intro h
    obtain ⟨found, hparse, rfl⟩ : ∃ found, parseTokens eof ts = .ok found ∧ Node.eraseAll found = ns := by
      cases hparse : parseTokens eof ts with
      | error e => rw [hparse] at h; cases h
      | ok found => rw [hparse] at h; exact ⟨found, rfl, Except.ok.inj h⟩
    obtain ⟨⟨nodes, rest, hle⟩, hread, hend⟩ := bind_eq_ok.1 hparse
    obtain ⟨us, htokens, hus⟩ := recognizes_nodes eof ts _ hread
    cases rest with
    | cons t rest => cases hend
    | nil =>
      cases hend
      rwa [htokens, List.map_nil, List.append_nil]
  · intro h
    obtain ⟨⟨found, rest, hle⟩, hread, hfound, hrest⟩ := reads_nodes eof h .source ts (List.append_nil _).symm
    have hend : rest = [] := List.map_eq_nil_iff.1 hrest
    subst hend
    rw [parseTokens, hread]
    exact congrArg Except.ok hfound

end Stencil.Template
