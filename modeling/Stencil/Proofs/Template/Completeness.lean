import Stencil.Proofs.Template.Grammar

/-!
# The parser reads what the grammar derives

Tokens that are a way to write nodes are read as these nodes, up to places, and what follows them is left
(`reads_nodes`, `reads_targets`). What follows must not be a token with which the nodes could go on.
-/

namespace Stencil.Template

variable {σ : Type} (eof : Span)

/-! ## Paths and arguments -/

theorem reads_segments {segs : List Segment} {rest : List Token} (hrest : rest.head? ≠ some .dot)
    {ts : List Lexeme} (h : ts.map (·.token) = segs.flatMap Segment.tokens ++ rest) :
    Reads (segments eof ts) (· = segs) rest := by
  induction segs generalizing ts with
  | nil =>
    have hdot : ∀ place r, ts ≠ ⟨.dot, place⟩ :: r := by
      rintro place r rfl
      have htokens : .dot :: r.map (·.token) = rest := h
      exact hrest (by rw [← htokens]; rfl)
    refine ⟨⟨[], ts, Nat.le_refl _⟩, ?_, rfl, h⟩
    rw [segments]
    · exact fun place _ _ r => hdot place _
    · exact fun place _ _ r => hdot place _
    · exact hdot
  | cons seg segs ih =>
    cases seg with
    | property name =>
      obtain ⟨dot, r, rfl, h₁⟩ := exists_located h
      obtain ⟨place, r, rfl, h₂⟩ := exists_located h₁
      rw [segments]
      exact (ih h₂).bind fun more _ _ hmore hafter => ⟨_, rfl, congrArg (List.cons _) hmore, hafter⟩
    | index n =>
      obtain ⟨dot, r, rfl, h₁⟩ := exists_located h
      obtain ⟨place, r, rfl, h₂⟩ := exists_located h₁
      rw [segments]
      exact (ih h₂).bind fun more _ _ hmore hafter => ⟨_, rfl, congrArg (List.cons _) hmore, hafter⟩

theorem reads_argument {a : Argument Unit} {rest : List Token} (hrest : rest.head? ≠ some .dot)
    {ts : List Lexeme} (h : ts.map (·.token) = a.tokens ++ rest) :
    Reads (argument eof ts) (fun a' => a'.map (fun _ => ()) = a) rest := by
  cases a with
  | literal text =>
    obtain ⟨place, r, rfl, h₁⟩ := exists_located h
    exact ⟨_, rfl, rfl, h₁⟩
  | path p =>
    obtain ⟨place, r, rfl, h₁⟩ := exists_located h
    rw [argument]
    exact (reads_segments eof hrest h₁).bind fun found _ _ hfound hafter =>
      ⟨_, rfl, congrArg (fun segs => Argument.path ⟨p.root, (), segs⟩) hfound, hafter⟩

theorem head_furtherTokens (args : List (Argument σ)) (rest : List Token) :
    (Argument.furtherTokens args ++ rest).head? ≠ some .dot := by
  cases args with
  | nil => exact fun h => nomatch h
  | cons a args => exact fun h => nomatch h

theorem reads_furtherArguments {args : List (Argument Unit)} {rest : List Token} {ts : List Lexeme}
    (h : ts.map (·.token) = Argument.furtherTokens args ++ rest) :
    Reads (furtherArguments eof ts) (fun args' => args'.map (Argument.map fun _ => ()) = args) rest := by
  induction args generalizing ts with
  | nil =>
    obtain ⟨place, r, rfl, h₁⟩ := exists_located h
    rw [furtherArguments]
    exact ⟨_, rfl, rfl, h₁⟩
  | cons a args ih =>
    obtain ⟨comma, r, rfl, h₁⟩ := exists_located h
    have h₂ : r.map (·.token) = a.tokens ++ (Argument.furtherTokens args ++ rest) :=
      h₁.trans (List.append_assoc ..)
    rw [furtherArguments]
    refine (reads_argument eof (head_furtherTokens args rest) h₂).bind fun a' r₁ hle ha hafter => ?_
    exact (ih hafter).bind fun more _ _ hmore hend => ⟨_, rfl, congrArg₂ List.cons ha hmore, hend⟩

theorem reads_arguments {args : List (Argument Unit)} {rest : List Token} {ts : List Lexeme}
    (h : ts.map (·.token) = Argument.tokensAll args ++ rest) :
    Reads (arguments eof ts) (fun args' => args'.map (Argument.map fun _ => ()) = args) rest := by
  cases args with
  | nil =>
    obtain ⟨place, r, rfl, h₁⟩ := exists_located h
    exact ⟨_, rfl, rfl, h₁⟩
  | cons a args =>
    have h₁ : ts.map (·.token) = a.tokens ++ (Argument.furtherTokens args ++ rest) :=
      h.trans (List.append_assoc ..)
    have hclose : ∀ place r, ts ≠ ⟨.parenClose, place⟩ :: r := by
      rintro place r rfl
      cases a <;> cases h₁
    rw [arguments]
    · refine (reads_argument eof (head_furtherTokens args rest) h₁).bind fun a' r₁ hle ha hafter => ?_
      exact (reads_furtherArguments eof hafter).bind fun more _ _ hmore hend =>
        ⟨_, rfl, congrArg₂ List.cons ha hmore, hend⟩
    · exact hclose

theorem head_segments {segs : List Segment} {rest : List Token} {t : Token} (ht : t ≠ .dot)
    (hrest : rest.head? ≠ some t) : (segs.flatMap Segment.tokens ++ rest).head? ≠ some t := by
  cases segs with
  | nil => exact hrest
  | cons seg segs => cases seg <;> exact fun h => ht (Option.some.inj h).symm

theorem ofName?_name (fn : ListFunction) : ListFunction.ofName? fn.name = some fn := by
  cases fn <;> decide

theorem ofName?_eq_none_iff {name : String} :
    ListFunction.ofName? name = none ↔ ∀ fn : ListFunction, fn.name ≠ name := by
  constructor
  · rintro h fn rfl
    rw [ofName?_name] at h
    cases h
  · intro h
    refine List.find?_eq_none.2 fun fn _ => ?_
    rw [beq_iff_eq]
    exact h fn

theorem reads_primary {us : List Token} {p : Primary Unit} (hp : IsPrimary us p) {rest : List Token}
    (hdot : rest.head? ≠ some .dot) (hparen : rest.head? ≠ some .parenOpen) {ts : List Lexeme}
    (h : ts.map (·.token) = us ++ rest) :
    Reads (primary eof ts) (fun p' => p'.map (fun _ => ()) = p) rest := by
  cases hp with
  | path p =>
    obtain ⟨place, r, rfl, h₁⟩ := exists_located h
    have hhead : (p.segments.flatMap Segment.tokens ++ rest).head? ≠ some .parenOpen :=
      head_segments (by decide) hparen
    have hcall : ∀ paren r', r ≠ ⟨.parenOpen, paren⟩ :: r' := by
      rintro paren r' rfl
      exact hhead (congrArg List.head? h₁.symm)
    rw [primary]
    · exact (reads_segments eof hdot h₁).bind fun found _ _ hfound hafter =>
        ⟨_, rfl, congrArg (fun segs => Primary.path ⟨p.root, (), segs⟩) hfound, hafter⟩
    · exact hcall
  | @call name args hname =>
    rw [List.append_assoc [_, _], ← Argument.tokensAll_eq] at h
    obtain ⟨word, r, rfl, h₁⟩ := exists_located h
    obtain ⟨paren, r, rfl, h₂⟩ := exists_located h₁
    rw [primary]
    refine (reads_arguments eof h₂).bind fun args' r₁ hle hargs hafter => ?_
    rw [ofName?_eq_none_iff.2 hname]
    exact ⟨_, rfl, congrArg (Primary.call name ()) hargs, hafter⟩
  | function fn a =>
    have htokens : [.word fn.name, .parenOpen] ++ a.tokens ++ [.parenClose] ++ rest =
        .word fn.name :: .parenOpen :: (Argument.tokensAll [a] ++ rest) := by
      simp [Argument.tokensAll, Argument.furtherTokens]
    rw [htokens] at h
    obtain ⟨word, r, rfl, h₁⟩ := exists_located h
    obtain ⟨paren, r, rfl, h₂⟩ := exists_located h₁
    rw [primary]
    refine (reads_arguments eof h₂).bind fun args' r₁ hle hargs hafter => ?_
    obtain ⟨a', rfl, rfl⟩ := List.map_eq_singleton_iff.1 hargs
    rw [ofName?_name]
    exact ⟨_, rfl, rfl, hafter⟩

/-! ## Options -/

/-- A setting is read from its key and its value, if it has one. -/
theorem exists_entry {s : Setting} (hs : s.Positive) :
    ∃ key, ∃ value : Option Token, s.tokens = .word key :: value.elim [] ([.equals, ·]) ∧
      (∀ v ∈ value, v.isOptionValue = true) ∧ Setting.ofEntry key value = .ok s := by
  have hvalue : ∀ t v : Token, t.isOptionValue = true → v ∈ some t → v.isOptionValue = true := by
    rintro t _ ht ⟨⟩
    exact ht
  cases s with
  | format text => exact ⟨"format", some (.str text), rfl, fun v => hvalue _ v rfl, rfl⟩
  | separator text => exact ⟨"separator", some (.str text), rfl, fun v => hvalue _ v rfl, rfl⟩
  | anchor => exact ⟨"anchor", none, rfl, by simp, rfl⟩
  | wrap w =>
    cases w with
    | lineWidth => exact ⟨"wrap", none, rfl, by simp, rfl⟩
    | width n =>
      refine ⟨"wrap", some (.int n), rfl, fun v => hvalue _ v rfl, ?_⟩
      rw [Setting.ofEntry, if_pos (hs n rfl)]

section
variable {s : Setting} (hs : s.Positive) {ts : List Lexeme}
include hs

/-- A setting with others after it. -/
theorem settings_comma {rest : List Token} (h : ts.map (·.token) = s.tokens ++ .comma :: rest) :
    ∃ stop r, ∃ after : { rest : List Lexeme // rest.length ≤ r.length } →
        { rest : List Lexeme // rest.length ≤ ts.length },
      r.map (·.token) = rest ∧ (∀ x, (after x).1 = x.1) ∧
        settings eof ts = ((s, stop) :: (settings eof r).1, (settings eof r).2.map after) := by
  obtain ⟨key, value, htokens, hvalue, hentry⟩ := exists_entry hs
  rw [htokens] at h
  obtain ⟨k, r, rfl, h₁⟩ := exists_located h
  cases value with
  | none =>
    obtain ⟨comma, r, rfl, h₂⟩ := exists_located h₁
    refine ⟨k.stop, r, fun x => ⟨x.1, by have := x.2; simp only [List.length_cons]; omega⟩, h₂, fun _ => rfl, ?_⟩
    rw [settings, hentry]
    · rintro e r' ⟨⟩
  | some v =>
    obtain ⟨e, r, rfl, h₂⟩ := exists_located h₁
    obtain ⟨place, r, rfl, h₃⟩ := exists_located h₂
    obtain ⟨comma, r, rfl, h₄⟩ := exists_located h₃
    refine ⟨place.stop, r, fun x => ⟨x.1, by have := x.2; simp only [List.length_cons]; omega⟩, h₄,
      fun _ => rfl, ?_⟩
    rw [settings, if_pos (hvalue v rfl), hentry]

/-- The last setting. -/
theorem settings_last {rest : List Token} (h : ts.map (·.token) = s.tokens ++ .stopDelimiter :: rest) :
    ∃ stop after, settings eof ts = ([(s, stop)], .ok after) ∧
      after.1.map (·.token) = .stopDelimiter :: rest := by
  obtain ⟨key, value, htokens, hvalue, hentry⟩ := exists_entry hs
  rw [htokens] at h
  obtain ⟨k, r, rfl, h₁⟩ := exists_located h
  cases value with
  | none =>
    obtain ⟨close, r, rfl, h₂⟩ := exists_located h₁
    refine ⟨k.stop, ⟨⟨.stopDelimiter, close⟩ :: r, by simp⟩, ?_, h₁⟩
    rw [settings, hentry]
    · rintro e r' ⟨⟩
  | some v =>
    obtain ⟨e, r, rfl, h₂⟩ := exists_located h₁
    obtain ⟨place, r, rfl, h₃⟩ := exists_located h₂
    obtain ⟨close, r, rfl, h₄⟩ := exists_located h₃
    refine ⟨place.stop, ⟨⟨.stopDelimiter, close⟩ :: r, by simp only [List.length_cons]; omega⟩, ?_, h₃⟩
    rw [settings, if_pos (hvalue v rfl), hentry]

end

theorem settings_tokens {found : List Setting} (hne : found ≠ []) (hfound : ∀ s ∈ found, s.Positive)
    {rest : List Token} {ts : List Lexeme}
    (h : ts.map (·.token) = Setting.tokensAll found ++ .stopDelimiter :: rest) :
    ∃ located after, settings eof ts = (located, .ok after) ∧ located.map (·.1) = found ∧
      after.1.map (·.token) = .stopDelimiter :: rest := by
  induction found generalizing ts with
  | nil => exact absurd rfl hne
  | cons s found ih =>
    have hs := hfound s List.mem_cons_self
    cases found with
    | nil =>
      obtain ⟨stop, after, hread, hafter⟩ := settings_last eof hs h
      exact ⟨_, after, hread, rfl, hafter⟩
    | cons s' found =>
      have h₁ : ts.map (·.token) =
          s.tokens ++ .comma :: (Setting.tokensAll (s' :: found) ++ .stopDelimiter :: rest) :=
        h.trans (List.append_assoc ..)
      obtain ⟨stop, r, f, hr, hf, hread⟩ := settings_comma eof hs h₁
      obtain ⟨located, after, hmore, hlocated, hafter⟩ := ih (List.cons_ne_nil s' found)
        (fun s hs => hfound s (List.mem_cons_of_mem _ hs)) hr
      refine ⟨(s, stop) :: located, f after, ?_, by rw [List.map_cons, hlocated], ?_⟩
      · rw [hread, hmore]
        rfl
      · rw [hf]
        exact hafter

theorem reads_options {us : List Token} {o : Options} (ho : IsOptions us o) {rest : List Token}
    {ts : List Lexeme} (h : ts.map (·.token) = us ++ .stopDelimiter :: rest) :
    Reads (options eof ts) (· = o) (.stopDelimiter :: rest) := by
  cases ho with
  | empty =>
    obtain ⟨close, r, rfl, h₁⟩ := exists_located h
    exact ⟨_, rfl, rfl, h⟩
  | @settings found _ hne hpositive hnodup hhas =>
    rw [← Setting.tokensAll_eq] at h
    obtain ⟨semicolon, r, rfl, h₁⟩ := exists_located h
    obtain ⟨located, ⟨after, hle⟩, hread, hlocated, hafter⟩ := settings_tokens eof hne hpositive h₁
    have hrepeated : repeated? [] found = none := repeated?_eq_none_iff.2 ⟨hnodup, by simp⟩
    rw [options, hread]
    dsimp only
    rw [hlocated, hrepeated]
    exact ⟨_, rfl, (Options.foldl_apply_eq_iff hnodup).2 hhas, hafter⟩

/-! ## Nodes and targets -/

theorem reads_furtherParameters {params : List String} (hne : params ≠ []) {rest : List Token} {ts : List Lexeme}
    (h : ts.map (·.token) = parameterTokens params ++ rest) :
    Reads (furtherParameters eof ts) (· = params) rest := by
  induction params generalizing ts with
  | nil => exact absurd rfl hne
  | cons p ps ih =>
    cases ps with
    | nil =>
      obtain ⟨word, r, rfl, h₁⟩ := exists_located h
      obtain ⟨pipe, r, rfl, h₂⟩ := exists_located h₁
      exact ⟨_, rfl, rfl, h₂⟩
    | cons q ps =>
      obtain ⟨word, r, rfl, h₁⟩ := exists_located h
      obtain ⟨comma, r, rfl, h₂⟩ := exists_located h₁
      rw [furtherParameters]
      exact (ih (List.cons_ne_nil q ps) h₂).bind fun more _ _ hmore hafter =>
        ⟨_, rfl, congrArg (List.cons p) hmore, hafter⟩

theorem reads_parameters {params : List String} {rest : List Token}
    (hrest : ∀ name, rest.head? ≠ some (.word name)) {ts : List Lexeme}
    (h : ts.map (·.token) = parameterTokens params ++ rest) :
    Reads (parameters eof ts) (· = params) rest := by
  cases params with
  | nil =>
    have hword : ∀ name place r, ts ≠ ⟨.word name, place⟩ :: r := by
      rintro name place r rfl
      exact hrest name (congrArg List.head? h.symm)
    refine ⟨⟨[], ts, Nat.le_refl _⟩, ?_, rfl, h⟩
    rw [parameters]
    exact hword
  | cons p ps =>
    have hread := reads_furtherParameters eof (List.cons_ne_nil p ps) h
    have hhead : ∃ more, parameterTokens (p :: ps) = .word p :: more := by
      cases ps with
      | nil => exact ⟨_, rfl⟩
      | cons q ps => exact ⟨_, rfl⟩
    obtain ⟨more, hmore⟩ := hhead
    rw [hmore] at h
    obtain ⟨word, r, rfl, -⟩ := exists_located h
    exact hread

/-- What can follow nodes: the end of the source, a closing brace, or the end of a region. -/
inductive EndsNodes : List Token → Prop where
  | source : EndsNodes []
  | braces (rest : List Token) : EndsNodes (.braceClose :: rest)
  | region (rest : List Token) : EndsNodes (.startDelimiter :: .atSign :: .word "end" :: rest)

/-- The parser reads the tokens, with `rest` behind them, as the nodes up to places. -/
def ReadsNodes (us : List Token) (ns : List (Node Unit)) (rest : List Token) : Prop :=
  ∀ ts : List Lexeme, ts.map (·.token) = us ++ rest →
    Reads (nodes eof ts) (fun ns' => Node.eraseAll ns' = ns) rest

/-- The parser reads the tokens, with `rest` behind them, as the targets up to places. -/
def ReadsTargets (us : List Token) (targets' : List (Target Unit)) (rest : List Token) : Prop :=
  ∀ ts : List Lexeme, ts.map (·.token) = us ++ rest →
    Reads (targets eof ts) (fun found => Target.mapAll (fun _ => ()) id found = targets') rest

theorem nodes_of_endsNodes {rest : List Token} (hrest : EndsNodes rest) {ts : List Lexeme}
    (h : ts.map (·.token) = rest) : Reads (nodes eof ts) (· = []) rest := by
  have hread : nodes eof ts = .ok ⟨[], ts, Nat.le_refl _⟩ := by
    cases hrest with
    | source =>
      rw [List.map_eq_nil_iff.1 h, nodes]
      all_goals simp
    | braces rest =>
      obtain ⟨brace, r, rfl, -⟩ := exists_located h
      rw [nodes]
      all_goals simp
    | region rest =>
      obtain ⟨start, r, rfl, h₁⟩ := exists_located h
      obtain ⟨sign, r, rfl, h₂⟩ := exists_located h₁
      obtain ⟨word, r, rfl, -⟩ := exists_located h₂
      rw [nodes]
  exact ⟨_, hread, rfl, h⟩

section
variable {us vs : List Token} {ns : List (Node Unit)} {rest : List Token} (hns : ReadsNodes eof vs ns rest)
include hns

theorem reads_literal (text : String) : ReadsNodes eof ([.text text] ++ vs) (.literal text () :: ns) rest := by
  intro ts h
  obtain ⟨span, r, rfl, h₁⟩ := exists_located h
  rw [nodes]
  exact (hns r h₁).bind fun more _ _ hmore hafter => ⟨_, rfl, congrArg₂ List.cons rfl hmore, hafter⟩

theorem reads_slot {name : String} (hname : name ≠ "end") :
    ReadsNodes eof ([.startDelimiter, .atSign, .word name, .parenOpen, .parenClose, .stopDelimiter] ++ vs)
      (.slot name () :: ns) rest := by
  intro ts h
  obtain ⟨start, r, rfl, h₁⟩ := exists_located h
  obtain ⟨sign, r, rfl, h₂⟩ := exists_located h₁
  obtain ⟨word, r, rfl, h₃⟩ := exists_located h₂
  obtain ⟨paren, r, rfl, h₄⟩ := exists_located h₃
  obtain ⟨paren', r, rfl, h₅⟩ := exists_located h₄
  obtain ⟨stop, r, rfl, h₆⟩ := exists_located h₅
  rw [nodes, regionHead]
  · exact (hns r h₆).bind fun more _ _ hmore hafter => ⟨_, rfl, congrArg₂ List.cons rfl hmore, hafter⟩
  · rintro p r' ⟨⟩
    exact hname rfl

theorem reads_region {name : String} (hname : name ≠ "end") {body : List (Node Unit)}
    (hbody : ∀ rest, EndsNodes rest → ReadsNodes eof us body rest) :
    ReadsNodes eof ([.startDelimiter, .atSign, .word name, .stopDelimiter] ++ us ++
      [.startDelimiter, .atSign, .word "end", .stopDelimiter] ++ vs) (.region name body () :: ns) rest := by
  intro ts h
  have htokens : [.startDelimiter, .atSign, .word name, .stopDelimiter] ++ us ++
      [.startDelimiter, .atSign, .word "end", .stopDelimiter] ++ vs ++ rest =
      .startDelimiter :: .atSign :: .word name :: .stopDelimiter :: (us ++
        .startDelimiter :: .atSign :: .word "end" :: .stopDelimiter :: (vs ++ rest)) := by
    simp
  rw [htokens] at h
  obtain ⟨start, r, rfl, h₁⟩ := exists_located h
  obtain ⟨sign, r, rfl, h₂⟩ := exists_located h₁
  obtain ⟨word, r, rfl, h₃⟩ := exists_located h₂
  obtain ⟨stop, r, rfl, h₄⟩ := exists_located h₃
  rw [nodes, regionHead]
  · refine (hbody _ (.region _) r h₄).bind fun body' r₁ hle₁ hbody' hafter => ?_
    obtain ⟨start', r', rfl, h₅⟩ := exists_located hafter
    obtain ⟨sign', r', rfl, h₆⟩ := exists_located h₅
    obtain ⟨word', r', rfl, h₇⟩ := exists_located h₆
    obtain ⟨stop', r', rfl, h₈⟩ := exists_located h₇
    dsimp only
    rw [regionEnd]
    refine (hns r' h₈).bind fun more _ _ hmore hend => ⟨_, rfl, ?_, hend⟩
    exact congrArg₂ List.cons (congrArg (Node.region name · ()) hbody') hmore
  · rintro p r' ⟨⟩
    exact hname rfl

theorem reads_expression {p : Primary Unit} (hp : IsPrimary us p) {us' : List Token}
    {targets' : List (Target Unit)} (htargets : IsTargets us' targets')
    (hreads : ∀ rest, rest.head? ≠ some .colon → ReadsTargets eof us' targets' rest) {ws : List Token}
    {o : Options} (ho : IsOptions ws o) :
    ReadsNodes eof ([.startDelimiter] ++ us ++ us' ++ ws ++ [.stopDelimiter] ++ vs)
      (.expression p targets' o () :: ns) rest := by
  intro ts h
  have htokens : [.startDelimiter] ++ us ++ us' ++ ws ++ [.stopDelimiter] ++ vs ++ rest =
      .startDelimiter :: (us ++ (us' ++ (ws ++ .stopDelimiter :: (vs ++ rest)))) := by
    simp
  rw [htokens] at h
  obtain ⟨start, r, rfl, h₁⟩ := exists_located h
  -- With an at sign the parser would take it for a region.
  have hsign : ∀ sign r', r ≠ ⟨.atSign, sign⟩ :: r' := by
    rintro sign r' rfl
    obtain ⟨name, more, rfl⟩ := hp.exists_word
    cases h₁
  have hhead : ∀ {t : Token}, t ≠ .colon → t ≠ .semicolon → t ≠ .stopDelimiter →
      (us' ++ (ws ++ .stopDelimiter :: (vs ++ rest))).head? ≠ some t :=
    fun hcolon hsemicolon hstop => htargets.head_ne hcolon (ho.head_ne hsemicolon hstop _)
  rw [nodes]
  · refine (reads_primary eof hp (hhead (by decide) (by decide) (by decide))
      (hhead (by decide) (by decide) (by decide)) h₁).bind fun p' r₁ hle₁ hp' hafter₁ => ?_
    refine (hreads _ (ho.head_ne (by decide) (by decide) _) r₁ hafter₁).bind
      fun ts' r₂ hle₂ hts' hafter₂ => ?_
    refine (reads_options eof ho hafter₂).bind fun o' r₃ hle₃ ho' hafter₃ => ?_
    obtain ⟨stop, r₄, rfl, h₄⟩ := exists_located hafter₃
    cases hp'
    cases hts'
    cases ho'
    exact (hns r₄ h₄).bind fun more _ _ hmore hafter => ⟨_, rfl, congrArg₂ List.cons rfl hmore, hafter⟩
  · exact fun sign _ r' => hsign sign _
  · exact hsign

end

section
variable {us vs : List Token} {ts' : List (Target Unit)} {rest : List Token}
  (hts : ReadsTargets eof vs ts' rest)
include hts

theorem reads_named (name : String) :
    ReadsTargets eof (.colon :: [.word name, .parenOpen, .parenClose] ++ vs) (.named name () :: ts') rest := by
  intro ts h
  obtain ⟨colon, r, rfl, h₁⟩ := exists_located h
  obtain ⟨word, r, rfl, h₂⟩ := exists_located h₁
  obtain ⟨paren, r, rfl, h₃⟩ := exists_located h₂
  obtain ⟨paren', r, rfl, h₄⟩ := exists_located h₃
  rw [targets]
  exact (hts r h₄).bind fun more _ _ hmore hafter => ⟨_, rfl, congrArg₂ List.cons rfl hmore, hafter⟩

theorem reads_anonymous {params : List String} (hparams : params.length ≤ 2) {body : List (Node Unit)}
    (hbody : IsNodes us body) (hreads : ∀ rest, EndsNodes rest → ReadsNodes eof us body rest) :
    ReadsTargets eof (.colon :: ([.braceOpen] ++ parameterTokens params ++ us ++ [.braceClose]) ++ vs)
      (.anonymous params body () :: ts') rest := by
  intro ts h
  have htokens : .colon :: ([.braceOpen] ++ parameterTokens params ++ us ++ [.braceClose]) ++ vs ++ rest =
      .colon :: .braceOpen :: (parameterTokens params ++ (us ++ .braceClose :: (vs ++ rest))) := by
    simp
  rw [htokens] at h
  obtain ⟨colon, r, rfl, h₁⟩ := exists_located h
  obtain ⟨brace, r, rfl, h₂⟩ := exists_located h₁
  have hhead : ∀ name, (us ++ .braceClose :: (vs ++ rest)).head? ≠ some (.word name) :=
    fun name => hbody.head_ne (by simp) (by simp) (by simp)
  rw [targets]
  refine (reads_parameters eof hhead h₂).bind fun params' r₁ hle₁ hparams' hafter₁ => ?_
  refine (hreads _ (.braces _) r₁ hafter₁).bind fun body' r₂ hle₂ hbody' hafter₂ => ?_
  obtain ⟨brace', r₃, rfl, h₃⟩ := exists_located hafter₂
  cases hparams'
  dsimp only
  rw [if_neg (Nat.not_lt.2 hparams)]
  refine (hts r₃ h₃).bind fun more _ _ hmore hafter => ⟨_, rfl, ?_, hafter⟩
  exact congrArg₂ List.cons (congrArg (Target.anonymous params · ()) hbody') hmore

end

mutual

/-- Tokens that are a way to write nodes are read as these nodes. -/
theorem reads_nodes {us : List Token} {ns : List (Node Unit)} (hns : IsNodes us ns) {rest : List Token}
    (hrest : EndsNodes rest) : ReadsNodes eof us ns rest := by
  match ns, hns with
  | [], .nil =>
    intro ts h
    obtain ⟨parsed, hread, hvalue, hafter⟩ := nodes_of_endsNodes eof hrest h
    exact ⟨parsed, hread, by rw [hvalue]; rfl, hafter⟩
  | n :: ns, .cons hn hns =>
    have hmore := reads_nodes hns hrest
    match hnode : n, hn with
    | .literal text _, .literal _ => exact reads_literal eof hmore text
    | .slot name _, .slot hname => exact reads_slot eof hmore hname
    | .region name body _, .region hname hbody =>
      exact reads_region eof hmore hname fun _ => reads_nodes hbody
    | .expression p ts o _, .expression hp hts ho =>
      exact reads_expression eof hmore hp hts (fun _ => reads_targets hts) ho
termination_by sizeOf ns
decreasing_by all_goals (simp +arith [*])

/-- Tokens that are a way to write targets are read as these targets. -/
theorem reads_targets {us : List Token} {ts' : List (Target Unit)} (hts : IsTargets us ts') {rest : List Token}
    (hrest : rest.head? ≠ some .colon) : ReadsTargets eof us ts' rest := by
  match ts', hts with
  | [], .nil =>
    intro ts h
    have hcolon : ∀ place r, ts ≠ ⟨.colon, place⟩ :: r := by
      rintro place r rfl
      exact hrest (congrArg List.head? h.symm)
    refine ⟨⟨[], ts, Nat.le_refl _⟩, ?_, rfl, h⟩
    rw [targets]
    · exact fun colon _ _ => hcolon colon _
    · exact fun colon _ _ _ _ _ => hcolon colon _
    · exact fun colon _ _ _ _ => hcolon colon _
    · exact fun colon _ _ _ => hcolon colon _
    · exact hcolon
  | .named name _ :: ts', .cons (.named _) hts =>
    exact reads_named eof (reads_targets hts hrest) name
  | .anonymous params body _ :: ts', .cons (.anonymous hparams hbody) hts =>
    exact reads_anonymous eof (reads_targets hts hrest) hparams hbody fun _ => reads_nodes hbody
termination_by sizeOf ts'
decreasing_by all_goals (simp +arith [*])

end

end Stencil.Template
