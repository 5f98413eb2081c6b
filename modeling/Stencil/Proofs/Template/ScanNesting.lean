import Stencil.Proofs.Template.Comments

/-!
# How tokens are nested, and why scanning ends

The tokens of a source are a text (`IsText`): literal texts and expressions, in whose braces stand texts again. While
the scanner is inside something, its tokens begin one, and the openings say what is still to be closed
(`BeginsText`, `BeginsExpression`). What a step can do is said once (`Moves`, `step_moves`); from it follow that a step
takes a piece of the input and that it keeps the nesting (`Moves.nested`), and so does a run (`Reaches.nested`), which
goes on to the end of the source or to a step that fails (`reaches_scanFrom`).

Main statement: `scan_wellScanned`.
-/

namespace Stencil.Template

variable {d : Delimiters}

/-! ## Well-bracketed tokens -/

mutual

/-- The tokens are a text: literal texts, none of them empty and no two of them side by side, and expressions. -/
inductive IsText : List Token → Prop where
  | nil : IsText []
  | text {ts : List Token} {s : String} : IsText ts → s ≠ "" → (∀ s', ts.getLast? ≠ some (.text s')) →
    IsText (ts ++ [.text s])
  | expression {ts es : List Token} : IsText ts → IsExpression es →
    IsText (ts ++ .startDelimiter :: (es ++ [.stopDelimiter]))

/-- The tokens stand in an expression: words, literals and punctuation, and anonymous templates, each a text in braces,
behind its parameters if it has any. -/
inductive IsExpression : List Token → Prop where
  | nil : IsExpression []
  | token {es : List Token} {t : Token} : IsExpression es → t.Printable → IsExpression (es ++ [t])
  | braces {es ts : List Token} {params : List String} : IsExpression es → (∀ p ∈ params, isWord p.toList = true) →
    IsText ts → IsExpression (es ++ .braceOpen :: (parameterTokens params ++ (ts ++ [.braceClose])))

end

mutual

/-- The tokens begin a text, and the openings are what they leave open. A text is innermost. -/
inductive BeginsText : List Opening → List Token → Prop where
  | source {ts : List Token} : IsText ts → BeginsText [] ts
  | braces {offset : Nat} {os : List Opening} {us ts : List Token} {params : List String} : BeginsExpression os us →
    (∀ p ∈ params, isWord p.toList = true) → IsText ts →
    BeginsText (.braces offset :: os) (us ++ .braceOpen :: (parameterTokens params ++ ts))

/-- The tokens begin a text, and the openings are what they leave open. An expression is innermost. -/
inductive BeginsExpression : List Opening → List Token → Prop where
  | expression {offset : Nat} {os : List Opening} {us es : List Token} : BeginsText os us → IsExpression es →
    BeginsExpression (.expression offset :: os) (us ++ .startDelimiter :: es)

end

section
variable {os : List Opening} {us vs : List Token} {offset : Nat}

theorem BeginsExpression.exists_openings (h : BeginsExpression os us) :
    ∃ offset os', os = .expression offset :: os' := by
  cases h with
  | expression _ _ => exact ⟨_, _, rfl⟩

/-- The innermost text goes on. It ends as the tokens do, so what is known of their last one is known of its last. -/
theorem BeginsText.append (h : BeginsText os us) (hvs : ∀ ts, IsText ts → ts <:+ us → IsText (ts ++ vs)) :
    BeginsText os (us ++ vs) := by
  cases h with
  | source hts => exact .source (hvs _ hts List.suffix_rfl)
  | @braces offset os us ts params hus hparams hts =>
    have hsuffix : ts <:+ us ++ .braceOpen :: (parameterTokens params ++ ts) :=
      ⟨us ++ .braceOpen :: parameterTokens params, by simp⟩
    rw [List.append_assoc, List.cons_append, List.append_assoc]
    exact .braces hus hparams (hvs ts hts hsuffix)

/-- The innermost expression goes on. -/
theorem BeginsExpression.append (h : BeginsExpression os us)
    (hvs : ∀ es, IsExpression es → IsExpression (es ++ vs)) : BeginsExpression os (us ++ vs) := by
  cases h with
  | expression hus hes =>
    rw [List.append_assoc, List.cons_append]
    exact .expression hus (hvs _ hes)

theorem BeginsText.text (h : BeginsText os us) {s : String} (hs : s ≠ "")
    (hlast : ∀ s', us.getLast? ≠ some (.text s')) : BeginsText os (us ++ [.text s]) := by
  refine h.append fun ts hts hsuffix => .text hts hs fun s' hs' => hlast s' ?_
  obtain ⟨front, rfl⟩ := hsuffix
  rw [List.getLast?_append, hs']
  rfl

theorem BeginsExpression.close (h : BeginsExpression (.expression offset :: os) us) :
    BeginsText os (us ++ [.stopDelimiter]) := by
  cases h with
  | expression hus hes =>
    rw [List.append_assoc, List.cons_append]
    exact hus.append fun ts hts _ => .expression hts hes

theorem BeginsText.close (h : BeginsText (.braces offset :: os) us) : BeginsExpression os (us ++ [.braceClose]) := by
  cases h with
  | braces hus hparams hts =>
    rw [List.append_assoc, List.cons_append, List.append_assoc]
    exact hus.append fun es hes => .braces hes hparams hts

end

/-! ## Steps -/

/-- From one offset to the other, a piece of the input is taken that is not empty. -/
def Takes (pos : Nat) (input : List Char) (pos' : Nat) (rest : List Char) : Prop :=
  ∃ piece, piece ≠ [] ∧ input = piece ++ rest ∧ pos' = pos + byteLength piece

theorem Takes.append {pos pos' : Nat} {input more rest : List Char} (h : Takes pos input pos' (more ++ rest)) :
    Takes pos input (pos' + byteLength more) rest := by
  obtain ⟨piece, hne, rfl, rfl⟩ := h
  exact ⟨piece ++ more, by simp [hne], by simp, by rw [byteLength_append, Nat.add_assoc]⟩

/-- What a step can do that takes the piece. -/
inductive Moves (d : Delimiters) (st : ScanState) (piece : List Char) : ScanState → Prop where
  | pass (literal : List Char) : st.InText → Moves d st piece { st with literal, pos := st.pos + byteLength piece }
  | start : st.InText → piece = [d.start] →
    Moves d st piece { st.flush.emit .startDelimiter (byteLength piece) with
      openings := .expression st.pos :: st.flush.openings }
  | closeBraces {offset : Nat} {os : List Opening} : st.openings = .braces offset :: os → piece = ['\x7d'] →
    Moves d st piece (st.flush.emit .braceClose (byteLength piece)).close
  | blank {offset : Nat} {os : List Opening} : st.openings = .expression offset :: os →
    Moves d st piece (st.skip (byteLength piece))
  | stop {offset : Nat} {os : List Opening} : st.openings = .expression offset :: os → piece = [d.stop] →
    Moves d st piece (st.emit .stopDelimiter (byteLength piece)).close
  | openBraces {offset : Nat} {os : List Opening} {params : List String} {located : List Lexeme} :
    st.openings = .expression offset :: os → (∀ p ∈ params, isWord p.toList = true) →
    located.map (·.token) = parameterTokens params →
    Moves d st piece { st with
      openings := .braces st.pos :: st.openings
      literalStart := st.pos + byteLength piece
      pos := st.pos + byteLength piece
      emitted := located.reverse ++ (st.emit .braceOpen 1).emitted }
  | token {offset : Nat} {os : List Opening} {t : Token} : st.openings = .expression offset :: os → t.Printable →
    Moves d st piece (st.emit t (byteLength piece))

/-- A word or a number that is read in an expression can be written. -/
theorem TakesToken.printable {c : Char} {more rest : List Char} {t : Token} (h : TakesToken c more t rest) :
    t.Printable := by
  cases h with
  | punctuation hc =>
    unfold punctuation? at hc
    split at hc
    case h_10 => cases hc
    all_goals
      cases hc
      trivial
  | word hc hmore =>
    have hword : isWord (c :: more) = true := by rw [isWord, hc, Bool.true_and, List.all_eq_true.2 hmore]
    rw [Token.Printable, isName, String.toList_ofList, hword, Bool.true_or]
  | percent hc hne hmore =>
    rw [hc, Token.Printable, isName, String.toList_ofList]
    simp [hne, List.all_eq_true.2 hmore]
  | int _ _ _ hlt => exact hlt
  | str => trivial

/-- The tokens of a header are those of parameters. -/
theorem Header.exists_params {text : List Char} {ts : List Token} (h : Header text ts) :
    ∃ p ps, (∀ q ∈ p :: ps, isWord q.toList = true) ∧ ts = parameterTokens (p :: ps) := by
  induction h with
  | @last _ name _ _ hname _ =>
    refine ⟨String.ofList name, [], ?_, rfl⟩
    rw [List.forall_mem_singleton, String.toList_ofList]
    exact hname
  | @cons _ name _ _ _ _ hname _ _ ih =>
    obtain ⟨p, ps, hps, rfl⟩ := ih
    refine ⟨String.ofList name, p :: ps, List.forall_mem_cons.2 ⟨?_, hps⟩, rfl⟩
    rw [String.toList_ofList]
    exact hname

section
variable {st st' : ScanState} {c : Char} {cs rest : List Char}

/-- The step takes the character it looks at and maybe more, and is one of the moves. -/
def StepMoves (d : Delimiters) (st : ScanState) (c : Char) (cs : List Char) (st' : ScanState) (rest : List Char) :
    Prop :=
  ∃ more, cs = more ++ rest ∧ Moves d st (c :: more) st'

theorem exists_braces_of_inBraces (h : st.inBraces = true) : ∃ offset os, st.openings = .braces offset :: os := by
  rw [ScanState.inBraces] at h
  split at h
  · next offset os hst => exact ⟨offset, os, hst⟩
  · cases h

theorem stepMoves_comment (htext : st.InText) {bytes : Nat} (h : skipComment d.stop cs = some (bytes, rest)) :
    StepMoves d st c ('!' :: cs) (st.skip (c.utf8Size + 1 + bytes)) rest := by
  obtain ⟨body, rfl, rfl⟩ := skipComment_eq_some h
  have hbytes : c.utf8Size + 1 + byteLength (body ++ ['!', d.stop]) =
      byteLength (c :: '!' :: (body ++ ['!', d.stop])) := Nat.add_assoc ..
  rw [hbytes]
  exact ⟨'!' :: (body ++ ['!', d.stop]), by simp, .pass st.literal htext⟩

theorem stepMoves_escapeTag (htext : st.InText) {found : List Char} {pos : Nat}
    (h : escapeTag d.stop st.pos (st.pos + c.utf8Size) [] cs = .ok (found, pos, rest)) :
    StepMoves d st c cs { st with literal := found ++ st.literal, pos := pos } rest := by
  obtain ⟨tag, chars, after, rfl, -, hend⟩ := tagRun_escapeTag d.stop st.pos (st.pos + c.utf8Size) [] cs
  rw [h] at hend
  cases hend with
  | closed _ =>
    have hpos : st.pos + c.utf8Size + byteLength tag + d.stop.utf8Size =
        st.pos + byteLength (c :: (tag ++ [d.stop])) := by
      rw [byteLength_cons, byteLength_append, byteLength_cons, byteLength_nil]
      omega
    rw [hpos]
    exact ⟨tag ++ [d.stop], by simp, .pass _ htext⟩

theorem stepMoves_stepText (htext : st.InText) (h : stepText d st c cs = .ok (st', rest)) :
    StepMoves d st c cs st' rest := by
  unfold stepText at h
  split at h
  · next hc =>
    obtain rfl := beq_iff_eq.1 hc
    split at h
    · next next rest' =>
      split at h
      · cases h
        exact ⟨[next], rfl, .pass _ htext⟩
      · cases h
        exact ⟨[], rfl, .pass _ htext⟩
    · cases h
      exact ⟨[], rfl, .pass _ htext⟩
  · split at h
    · next hc =>
      rw [Bool.and_eq_true, beq_iff_eq] at hc
      obtain ⟨hbraces, rfl⟩ := hc
      obtain ⟨offset, os, hst⟩ := exists_braces_of_inBraces hbraces
      cases h
      exact ⟨[], rfl, .closeBraces hst rfl⟩
    · split at h
      · next hc =>
        split at h
        · split at h
          · next hskip =>
            cases h
            exact stepMoves_comment htext hskip
          · cases h
        · split at h
          · next hread =>
            cases h
            exact stepMoves_escapeTag htext hread
          · cases h
        · obtain rfl := beq_iff_eq.1 hc
          cases h
          exact ⟨[], rfl, .start htext rfl⟩
      · cases h
        exact ⟨[], rfl, .pass _ htext⟩

theorem stepMoves_braces {offset : Nat} {os : List Opening} (hst : st.openings = .expression offset :: os)
    {located : List Lexeme} {pos : Nat} (h : header? (st.pos + 1) cs = some (located, pos, rest)) :
    StepMoves d st '\x7b' cs { st with
      openings := .braces st.pos :: st.openings
      literalStart := pos
      pos := pos
      emitted := located.reverse ++ (st.emit .braceOpen 1).emitted } rest := by
  obtain ⟨text, after, hheader, rfl, rfl, rfl⟩ := header_of_header? h
  obtain ⟨p, ps, hparams, hlocated⟩ := hheader.exists_params
  have hpos : st.pos + 1 + byteLength text + (after.takeWhile isInlineBlank).length =
      st.pos + byteLength ('\x7b' :: (text ++ after.takeWhile isInlineBlank)) := by
    have hbrace : '\x7b'.utf8Size = 1 := rfl
    rw [byteLength_cons, byteLength_append, byteLength_takeWhile_isInlineBlank, hbrace]
    omega
  rw [hpos]
  refine ⟨text ++ after.takeWhile isInlineBlank, ?_, .openBraces hst hparams hlocated⟩
  rw [List.append_assoc, List.takeWhile_append_dropWhile]

theorem stepMoves_stepExpression {offset : Nat} {os : List Opening} (hst : st.openings = .expression offset :: os)
    (h : stepExpression d st c cs = .ok (st', rest)) : StepMoves d st c cs st' rest := by
  unfold stepExpression at h
  split at h
  · cases h
    exact ⟨[], rfl, .blank hst⟩
  · split at h
    · next hc =>
      obtain rfl := beq_iff_eq.1 hc
      cases h
      exact ⟨[], rfl, .stop hst rfl⟩
    · split at h
      · next hc =>
        obtain rfl := beq_iff_eq.1 hc
        dsimp only at h
        split at h
        · next hheader =>
          cases h
          exact stepMoves_braces hst hheader
        · have hnone : ([] : List Lexeme).map (·.token) = parameterTokens [] := rfl
          cases h
          exact ⟨[], rfl, .openBraces hst (List.forall_mem_nil _) hnone⟩
      · split at h
        · next htoken =>
          cases h
          obtain ⟨hcs, htakes⟩ := takesToken_of_expressionToken? htoken
          exact ⟨_, hcs, .token hst htakes.printable⟩
        · cases h

/-- What a step can do. -/
theorem step_moves (h : step d st c cs = .ok (st', rest)) : StepMoves d st c cs st' rest := by
  unfold step at h
  split at h
  · next hst => exact stepMoves_stepExpression hst h
  · next hst => exact stepMoves_stepText (fun offset os hopen => hst offset os hopen) h

end

/-! ## What a step keeps -/

theorem text_notMem_parameterTokens (s : String) (params : List String) : .text s ∉ parameterTokens params := by
  induction params using parameterTokens.induct with
  | case1 => exact List.not_mem_nil
  | case2 p => simp [parameterTokens]
  | case3 p ps hps ih => simpa [parameterTokens] using ih

def ScanState.done (st : ScanState) : List Token :=
  st.emitted.reverse.map (·.token)

/-- The tokens of the state begin a text that its openings leave open, and no literal text is the last of them. -/
structure ScanState.Nested (st : ScanState) : Prop where
  begins : BeginsText st.openings st.done ∨ BeginsExpression st.openings st.done
  last : ∀ s, st.done.getLast? ≠ some (.text s)

namespace ScanState

variable {st : ScanState}

theorem done_emit (st : ScanState) (t : Token) (bytes : Nat) : (st.emit t bytes).done = st.done ++ [t] := by
  simp [done, emit]

/-- The pending literal text is put behind the tokens, if there is any. -/
theorem done_flush (st : ScanState) :
    st.flush.done = st.done ∨ ∃ s, s ≠ "" ∧ st.flush.done = st.done ++ [.text s] := by
  rw [flush]
  split
  · exact .inl rfl
  · next hne => exact .inr ⟨String.ofList st.literal.reverse, by simpa using hne, by simp [done]⟩

namespace Nested

theorem initial : ({} : ScanState).Nested :=
  ⟨.inl (.source .nil), nofun⟩

/-- Behind tokens that are no literal text, none is the last. -/
theorem of_done {ts vs : List Token} (hdone : st.done = ts ++ vs) (hne : vs ≠ []) (hvs : ∀ s, .text s ∉ vs)
    (h : BeginsText st.openings (ts ++ vs) ∨ BeginsExpression st.openings (ts ++ vs)) : st.Nested := by
  refine ⟨hdone ▸ h, fun s hs => hvs s ?_⟩
  rw [hdone, List.getLast?_append_of_ne_nil _ hne] at hs
  exact List.mem_of_getLast? hs

theorem beginsText (h : st.Nested) (htext : st.InText) : BeginsText st.openings st.done := by
  rcases h.begins with hbegins | hbegins
  · exact hbegins
  · obtain ⟨offset, os, hst⟩ := hbegins.exists_openings
    exact absurd hst (htext offset os)

theorem beginsExpression (h : st.Nested) {offset : Nat} {os : List Opening}
    (hst : st.openings = .expression offset :: os) : BeginsExpression (.expression offset :: os) st.done := by
  rw [← hst]
  rcases h.begins with hbegins | hbegins
  · rw [hst] at hbegins
    cases hbegins
  · exact hbegins

theorem flush (h : st.Nested) (htext : st.InText) : BeginsText st.openings st.flush.done := by
  rcases st.done_flush with hdone | ⟨s, hs, hdone⟩
  · rw [hdone]
    exact h.beginsText htext
  · rw [hdone]
    exact (h.beginsText htext).text hs h.last

end Nested

end ScanState

section
variable {st st' : ScanState} {piece : List Char}

/-- A step keeps the nesting. -/
theorem Moves.nested (hmove : Moves d st piece st') (h : st.Nested) : st'.Nested := by
  have hsingle : ∀ t : Token, (∀ s, t ≠ .text s) → ∀ s, .text s ∉ [t] :=
    fun t ht s hs => ht s (List.mem_singleton.1 hs).symm
  cases hmove with
  | pass literal htext => exact ⟨h.begins, h.last⟩
  | start htext _ =>
    have hdone := st.flush.done_emit .startDelimiter (byteLength piece)
    refine .of_done hdone (List.cons_ne_nil _ _) (hsingle _ (by simp)) (.inr ?_)
    rw [ScanState.openings_flush]
    exact .expression (h.flush htext) .nil
  | closeBraces hst _ =>
    have htext : st.InText := by
      rintro _ _ hopen
      rw [hst] at hopen
      cases hopen
    have hdone := st.flush.done_emit .braceClose (byteLength piece)
    have hbegins := h.flush htext
    rw [hst] at hbegins
    refine .of_done hdone (List.cons_ne_nil _ _) (hsingle _ (by simp)) (.inr ?_)
    rw [ScanState.close, ScanState.emit, ScanState.openings_flush, hst]
    exact hbegins.close
  | blank hst => exact ⟨h.begins, h.last⟩
  | stop hst _ =>
    have hdone := st.done_emit .stopDelimiter (byteLength piece)
    refine .of_done hdone (List.cons_ne_nil _ _) (hsingle _ (by simp)) (.inl ?_)
    rw [ScanState.close, ScanState.emit, hst]
    exact (h.beginsExpression hst).close
  | @openBraces offset os params located hst hparams hlocated =>
    refine .of_done (?_ : _ = st.done ++ .braceOpen :: parameterTokens params) (List.cons_ne_nil _ _) ?_ (.inl ?_)
    · simp [ScanState.done, ScanState.emit, hlocated]
    · intro s hs
      rcases List.mem_cons.1 hs with hs | hs
      · cases hs
      · exact text_notMem_parameterTokens s params hs
    · -- The text in the braces is still empty.
      have hbegins := h.beginsExpression hst
      rw [← hst] at hbegins
      rw [← List.append_nil (parameterTokens params)]
      exact .braces hbegins hparams .nil
  | @token offset os t hst ht =>
    have hdone := st.done_emit t (byteLength piece)
    refine .of_done hdone (List.cons_ne_nil _ _) (hsingle _ ?_) (.inr ?_)
    · rintro s rfl
      exact ht
    · rw [ScanState.emit, hst]
      exact (h.beginsExpression hst).append fun es hes => .token hes ht

theorem Moves.pos_eq (hmove : Moves d st piece st') : st'.pos = st.pos + byteLength piece := by
  cases hmove with
  | start _ _ => exact congrArg (· + byteLength piece) st.pos_flush
  | closeBraces _ _ => exact congrArg (· + byteLength piece) st.pos_flush
  | pass _ _ | blank _ | stop _ _ | openBraces _ _ _ | token _ _ => rfl

theorem Reaches.nested {before after : List Char} (h : Reaches d st before st' after) (hst : st.Nested) :
    st'.Nested := by
  induction h with
  | here => exact hst
  | behind hstep _ ih =>
    obtain ⟨_, _, hmove⟩ := step_moves hstep
    exact ih (hmove.nested hst)

/-- A run of the scanner goes on to the end of the source, or to a step that fails. -/
theorem reaches_scanFrom (d : Delimiters) (st : ScanState) (input : List Char) :
    (∃ st', Reaches d st input st' [] ∧ scanFrom d st input = finish d st') ∨
      ∃ before c cs st' e, input = before ++ c :: cs ∧ Reaches d st before st' (c :: cs) ∧
        step d st' c cs = .error e ∧ scanFrom d st input = .error e := by
  fun_induction scanFrom d st input with
  | case1 st => exact .inl ⟨st, .here st [], rfl⟩
  | case2 st c cs st₁ rest hstep ih =>
    obtain ⟨more, rfl, -⟩ := step_moves hstep
    rcases ih with ⟨st', hreaches, hfinish⟩ | ⟨before, c', cs', st', e, rfl, hreaches, hfails, herror⟩
    · refine .inl ⟨st', ?_, hfinish⟩
      rw [← List.append_nil rest] at hstep
      exact .behind hstep hreaches
    · exact .inr ⟨c :: (more ++ before), c', cs', st', e, by simp, .behind hstep hreaches, hfails, herror⟩
  | case3 st c cs e hstep => exact .inr ⟨[], c, cs, st, e, rfl, .here st _, hstep, rfl⟩

end

/-! ## The loops inside a step -/

/-- A round of the loop over the escapes of a tag ends the tag, or takes an escape and leaves the rest to the next. -/
def EscapeRound (stop : Char) (opened pos : Nat) (found cs : List Char) : Prop :=
  TagEnd stop opened pos found cs (escapeTag stop opened pos found cs) ∨
    ∃ x pos' rest, Takes pos cs pos' rest ∧
      escapeTag stop opened pos found cs = escapeTag stop opened pos' (x :: found) rest

/-- A round of the loop over the words of a header finds that there is no header, takes a word and the bar with which
the header ends, or takes a word and a comma and leaves the rest to the next. -/
def HeaderRound (pos : Nat) (cs : List Char) : Prop :=
  header? pos cs = none ∨
  (∃ name s s' pos' rest, Takes pos cs pos' rest ∧
    header? pos cs = some ([⟨.word name, s⟩, ⟨.pipe, s'⟩], pos', rest)) ∨
  ∃ name s s' pos' rest, Takes pos cs pos' rest ∧
    header? pos cs = (header? pos' rest).map fun found => (⟨.word name, s⟩ :: ⟨.comma, s'⟩ :: found.1, found.2)

theorem escapeRound (stop : Char) (opened pos : Nat) (found cs : List Char) : EscapeRound stop opened pos found cs := by
  obtain ⟨tag, chars, after, rfl, htag, hend⟩ := tagRun_escapeTag stop opened pos found cs
  cases htag with
  | nil => exact .inl hend
  | @cons us text xs x hunit _ =>
    have hne : us ≠ [] := by
      rintro rfl
      rcases hunit with hunit | hunit <;> cases hunit
    rw [EscapeRound, List.append_assoc]
    exact .inr ⟨x, pos + byteLength us, text ++ after, ⟨us, hne, rfl, rfl⟩, escapeTag_unit opened hunit _⟩

/-- A word of a header is taken with the blanks around it and the mark behind it. -/
theorem takes_word {cs name r rest : List Char} {mark : Char} (pos : Nat)
    (hword : splitWord? (cs.dropWhile isAsciiBlank) = some (name, r)) (hrest : r.dropWhile isAsciiBlank = mark :: rest)
    (hmark : mark.utf8Size = 1) :
    Takes pos cs (pos + (cs.takeWhile isAsciiBlank).length + name.length + (r.takeWhile isAsciiBlank).length + 1)
      rest := by
  refine ⟨cs.takeWhile isAsciiBlank ++ (name ++ (r.takeWhile isAsciiBlank ++ [mark])), by simp, ?_, ?_⟩
  · refine (eq_append_of_splitWord? hword hrest).trans ?_
    simp
  · simp only [byteLength_append, byteLength_cons, byteLength_nil, byteLength_takeWhile_isAsciiBlank,
      (splitWord?_eq_some hword).2.2, hmark]
    omega

theorem headerRound (pos : Nat) (cs : List Char) : HeaderRound pos cs := by
  rw [HeaderRound, header?]
  split
  · exact .inl rfl
  · next name r hword =>
    dsimp only
    split
    · next rest hrest =>
      exact .inr (.inr ⟨_, _, _, _, rest, takes_word pos hword hrest rfl, rfl⟩)
    · next rest hrest =>
      have hmark := takes_word pos hword hrest rfl
      rw [← List.takeWhile_append_dropWhile (p := isInlineBlank) (l := rest)] at hmark
      have htakes := hmark.append
      rw [byteLength_takeWhile_isInlineBlank] at htakes
      exact .inr (.inl ⟨_, _, _, _, _, htakes, rfl⟩)
    · exact .inl rfl

/-! ## What is scanned -/

/-- The tokens are well-formed as the tokens of the source. -/
structure WellScanned (d : Delimiters) (source : List Char) (tokens : List Lexeme) : Prop where
  /-- Each token has some of the source. -/
  within : ∀ t ∈ tokens, t.span.start < t.span.stop ∧ t.span.Within source
  /-- The tokens stand one after the other, each at a piece that spells it. -/
  cut : Cut (Spells d) source tokens
  isText : IsText (tokens.map (·.token))

theorem wellScanned_of_scan {source : List Char} {tokens : List Lexeme} (h : scan d source = .ok tokens) :
    WellScanned d source tokens := by
  have hcut := cut_of_scan h
  refine ⟨fun t ht => ?_, hcut, ?_⟩
  · obtain ⟨piece, hspells, hholds⟩ := hcut.holds t ht
    refine ⟨?_, hholds.within⟩
    rw [hholds.stop_eq]
    exact Nat.lt_add_of_pos_right (byteLength_pos hspells.1)
  · rcases reaches_scanFrom d {} source with ⟨st, hreaches, hfinish⟩ | ⟨_, _, _, _, e, -, -, -, herror⟩
    · have hnested := hreaches.nested .initial
      rw [← scan, h, finish] at hfinish
      split at hfinish
      · next hst =>
        -- With nothing left open, what the tokens begin is all of a text.
        cases hfinish
        have hbegins := hnested.flush (by simp [ScanState.InText, hst])
        rw [hst] at hbegins
        cases hbegins with
        | source hts => exact hts
      · cases hfinish
      · cases hfinish
    · cases h.symm.trans herror

/-- **Scanning ends, and its tokens are well-formed.** Whatever the delimiters and the source: the tokens that are
found are pieces of the source, one after the other and none of them empty; each but literal text is spelled by its
piece; and they are bracketed as a text. Every step of the scanner takes a piece of the input, and so does every round
of its loops over the escapes of a tag and over the words of a header, unless it is the last one; and the steps go on to
the end of the source or to the first that fails. -/
theorem scan_wellScanned (d : Delimiters) (source : List Char) :
    (∀ tokens, scan d source = .ok tokens → WellScanned d source tokens) ∧
    (∀ st c cs st' rest, step d st c cs = .ok (st', rest) → Takes st.pos (c :: cs) st'.pos rest) ∧
    (∀ opened pos found cs, EscapeRound d.stop opened pos found cs) ∧
    (∀ pos cs, HeaderRound pos cs) ∧
    ((∃ st, Reaches d {} source st [] ∧ scan d source = finish d st) ∨
      ∃ before c cs st e, source = before ++ c :: cs ∧ Reaches d {} before st (c :: cs) ∧
        step d st c cs = .error e ∧ scan d source = .error e) := by
  refine ⟨fun tokens h => wellScanned_of_scan h, fun st c cs st' rest h => ?_, escapeRound d.stop, headerRound,
    reaches_scanFrom d {} source⟩
  obtain ⟨more, rfl, hmove⟩ := step_moves h
  exact ⟨c :: more, List.cons_ne_nil _ _, rfl, hmove.pos_eq⟩

/-- Literal text with a comment and a tag of escapes in it, and an expression with a body of two parameters that has an
expression in it; then the step over the brace and the parameters. -/
theorem scan_wellScanned_body :
    let body := "x, i | <i>;\x7d; wrap=\"\\\"\">".toList
    let source := "é<! a !><\\n>b<xs:\x7b".toList ++ body
    let tokens : List Lexeme := [⟨.text "é\nb", ⟨0, 14⟩⟩, ⟨.startDelimiter, ⟨14, 15⟩⟩, ⟨.word "xs", ⟨15, 17⟩⟩,
      ⟨.colon, ⟨17, 18⟩⟩, ⟨.braceOpen, ⟨18, 19⟩⟩, ⟨.word "x", ⟨19, 20⟩⟩, ⟨.comma, ⟨20, 21⟩⟩, ⟨.word "i", ⟨22, 23⟩⟩,
      ⟨.pipe, ⟨24, 25⟩⟩, ⟨.startDelimiter, ⟨26, 27⟩⟩, ⟨.word "i", ⟨27, 28⟩⟩, ⟨.stopDelimiter, ⟨28, 29⟩⟩,
      ⟨.text ";", ⟨29, 30⟩⟩, ⟨.braceClose, ⟨30, 31⟩⟩, ⟨.semicolon, ⟨31, 32⟩⟩, ⟨.word "wrap", ⟨33, 37⟩⟩,
      ⟨.equals, ⟨37, 38⟩⟩, ⟨.str "\"", ⟨38, 42⟩⟩, ⟨.stopDelimiter, ⟨42, 43⟩⟩]
    let before : ScanState := { openings := [.expression 14], pos := 18 }
    let behind : ScanState := {
      openings := [.braces 18, .expression 14], literalStart := 26, pos := 26
      emitted := [⟨.pipe, ⟨24, 25⟩⟩, ⟨.word "i", ⟨22, 23⟩⟩, ⟨.comma, ⟨20, 21⟩⟩, ⟨.word "x", ⟨19, 20⟩⟩,
        ⟨.braceOpen, ⟨18, 19⟩⟩] }
    scan {} source = .ok tokens ∧ WellScanned {} source tokens ∧
      step {} before '\x7b' body = .ok (behind, body.drop 7) ∧ Takes 18 ('\x7b' :: body) 26 (body.drop 7) := by
  intro body source tokens before behind
  have hscan : scan {} source = .ok tokens := by decide +kernel
  have hstep : step {} before '\x7b' body = .ok (behind, body.drop 7) := by decide +kernel
  obtain ⟨hwell, htakes, -⟩ := scan_wellScanned {} source
  exact ⟨hscan, hwell tokens hscan, hstep, htakes before '\x7b' body behind _ hstep⟩

end Stencil.Template
