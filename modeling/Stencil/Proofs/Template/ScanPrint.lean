import Stencil.Proofs.Template.ScanTokens

/-!
# Scanning printed templates

The text of a tree is scanned as the tokens of the tree, whatever is scanned before and after it
(`scans_nodes`, `scans_targets`). Between the delimiters this is `scans_sources`; here are literal text, with
its escapes, and the braces and comments around bodies.
-/

namespace Stencil.Template

variable {d : Delimiters} {st : ScanState}

/-! ## Literal text -/

def ScanState.InText (st : ScanState) : Prop :=
  ∀ offset os, st.openings ≠ .expression offset :: os

theorem step_of_inText (h : st.InText) (c : Char) (cs : List Char) : step d st c cs = stepText d st c cs := by
  rw [step]
  split
  · next hst => exact absurd hst (h _ _)
  · rfl

section
variable (hd : d.admissible = true)
include hd

theorem start_beq_backslash : (d.start == '\\') = false :=
  beq_eq_false_iff_ne.2 (ne_start_of_isReserved hd (by decide)).symm

theorem start_beq_brace (st : ScanState) : (st.inBraces && d.start == '\x7d') = false := by
  rw [beq_eq_false_iff_ne.2 (ne_start_of_isReserved hd (by decide)).symm, Bool.and_false]

theorem stepText_comment_eq_ok_iff {st' : ScanState} {cs rest : List Char} :
    stepText d st d.start ('!' :: cs) = .ok (st', rest) ↔
      ∃ bytes, skipComment d.stop cs = some (bytes, rest) ∧ st' = st.skip (d.start.utf8Size + 1 + bytes) := by
  rw [stepText, start_beq_backslash hd, start_beq_brace hd]
  simp only [beq_self_eq_true, if_true, Bool.false_eq_true, if_false]
  cases skipComment d.stop cs with
  | none => simp
  | some found => simp [Prod.ext_iff, and_comm, eq_comm]

theorem stepText_escapeTag_eq_ok_iff {st' : ScanState} {cs rest : List Char} :
    stepText d st d.start ('\\' :: cs) = .ok (st', rest) ↔
      ∃ found pos, escapeTag d.stop st.pos (st.pos + d.start.utf8Size) [] ('\\' :: cs) = .ok (found, pos, rest) ∧
        st' = { st with literal := found ++ st.literal, pos } := by
  rw [stepText, start_beq_backslash hd, start_beq_brace hd]
  simp only [beq_self_eq_true, if_true, Bool.false_eq_true, if_false]
  cases escapeTag d.stop st.pos (st.pos + d.start.utf8Size) [] ('\\' :: cs) with
  | error e => simp
  | ok found => simp [Prod.ext_iff, and_comm, eq_comm]

/-- A start delimiter opens an expression if neither a comment nor an escape follows. -/
theorem stepText_expression {cs : List Char} (hsign : cs.head? ≠ some '!') (hescape : cs.head? ≠ some '\\') :
    stepText d st d.start cs = .ok ({ st.flush.emit .startDelimiter d.start.utf8Size with
      openings := .expression st.pos :: st.flush.openings }, cs) := by
  unfold stepText
  rw [start_beq_backslash hd, start_beq_brace hd]
  simp only [beq_self_eq_true, if_true, Bool.false_eq_true, if_false]
  split
  · exact absurd rfl hsign
  · exact absurd rfl hescape
  · rfl

end

theorem escapeTag_backslash {stop : Char} (hstop : stop ≠ '\\') (opened pos : Nat) (rest : List Char) :
    ∃ pos', escapeTag stop opened pos [] ('\\' :: 'u' :: '0' :: '0' :: '5' :: 'c' :: stop :: rest) =
      .ok (['\\'], pos', rest) := by
  have hcode : codePoint? '0' '0' '5' 'c' = some '\\' := by decide
  refine ⟨pos + 6 + stop.utf8Size, ?_⟩
  rw [escapeTag, hcode]
  dsimp only
  rw [escapeTag]
  · simp
  all_goals simp [hstop]

section
variable (hd : d.admissible = true) (h : st.InText)
include hd h

/-- A printed character of literal text is scanned as this character. -/
theorem scanFrom_printChar (c : Char) (rest : List Char) :
    ∃ st', scanFrom d st (printChar d st.inBraces c ++ rest) = scanFrom d st' rest ∧
      st'.openings = st.openings ∧ st'.literal = c :: st.literal ∧ st'.emitted = st.emitted := by
  have hstop : '\\' ≠ d.stop := ne_stop_of_isReserved hd (by decide)
  unfold printChar
  split
  · next hc =>
    rw [beq_iff_eq.1 hc]
    obtain ⟨pos, htag⟩ := escapeTag_backslash (Ne.symm hstop) st.pos (st.pos + d.start.utf8Size) rest
    have hstep : step d st d.start ('\\' :: 'u' :: '0' :: '0' :: '5' :: 'c' :: d.stop :: rest) =
        .ok ({ st with literal := ['\\'] ++ st.literal, pos := pos }, rest) := by
      rw [step_of_inText h]
      exact (stepText_escapeTag_eq_ok_iff hd).2 ⟨_, pos, htag, rfl⟩
    exact ⟨_, scanFrom_of_step hstep, rfl, rfl, rfl⟩
  · next hc =>
    split
    · next hkept =>
      have hstep : step d st '\\' (c :: rest) = .ok (st.keep c (1 + c.utf8Size), rest) := by
        rw [step_of_inText h, stepText]
        simp only [beq_self_eq_true, if_true, hkept]
      exact ⟨_, scanFrom_of_step hstep, rfl, rfl, rfl⟩
    · next hkept =>
      rw [Bool.or_eq_true, not_or] at hkept
      have hstep : step d st c rest = .ok (st.keep c c.utf8Size, rest) := by
        rw [step_of_inText h]
        unfold stepText
        rw [if_neg hc, if_neg hkept.2, if_neg hkept.1]
      exact ⟨_, scanFrom_of_step hstep, rfl, rfl, rfl⟩

theorem scanFrom_printText (text rest : List Char) :
    ∃ st', scanFrom d st (text.flatMap (printChar d st.inBraces) ++ rest) = scanFrom d st' rest ∧
      st'.openings = st.openings ∧ st'.literal = text.reverse ++ st.literal ∧ st'.emitted = st.emitted := by
  induction text generalizing st with
  | nil => exact ⟨st, rfl, rfl, rfl, rfl⟩
  | cons c text ih =>
    obtain ⟨st₁, hscan₁, hopen₁, hliteral₁, hemitted₁⟩ :=
      scanFrom_printChar hd h c (text.flatMap (printChar d st.inBraces) ++ rest)
    have hbraces : st₁.inBraces = st.inBraces := by rw [ScanState.inBraces, hopen₁, ScanState.inBraces]
    have htext : st₁.InText := by
      intro offset os
      rw [hopen₁]
      exact h offset os
    obtain ⟨st₂, hscan₂, hopen₂, hliteral₂, hemitted₂⟩ := ih htext
    refine ⟨st₂, ?_, hopen₂.trans hopen₁, ?_, hemitted₂.trans hemitted₁⟩
    · rw [List.flatMap_cons, List.append_assoc, hscan₁, ← hbraces, hscan₂]
    · rw [hliteral₂, hliteral₁, List.reverse_cons, List.append_assoc]
      rfl

/-- A comment leaves nothing behind. -/
theorem scanFrom_emptyComment (rest : List Char) :
    ∃ st', scanFrom d st (emptyComment d ++ rest) = scanFrom d st' rest ∧ st'.openings = st.openings ∧
      st'.literal = st.literal ∧ st'.emitted = st.emitted := by
  have hskip : skipComment d.stop ('!' :: d.stop :: rest) = some (1 + d.stop.utf8Size, rest) := by
    simp [skipComment]
  have hstep : step d st d.start ('!' :: '!' :: d.stop :: rest) =
      .ok (st.skip (d.start.utf8Size + 1 + (1 + d.stop.utf8Size)), rest) := by
    rw [step_of_inText h]
    exact (stepText_comment_eq_ok_iff hd).2 ⟨_, hskip, rfl⟩
  exact ⟨_, scanFrom_of_step hstep, rfl, rfl, rfl⟩

end

/-! ## Expressions -/

section
variable (hd : d.admissible = true)
include hd

/-- The start delimiter opens an expression if neither a comment nor an escape follows. -/
theorem scanFrom_start (h : st.InText) {c : Char} (hc : BeginsToken c) (cs : List Char) :
    ∃ st', scanFrom d st (d.start :: c :: cs) = scanFrom d st' (c :: cs) ∧
      st'.openings = .expression st.pos :: st.openings ∧ st'.literal = [] ∧
      st'.tokens = st.tokens ++ [.startDelimiter] := by
  have hstep : step d st d.start (c :: cs) = .ok ({ st.flush.emit .startDelimiter d.start.utf8Size with
      openings := .expression st.pos :: st.flush.openings }, c :: cs) := by
    rw [step_of_inText h]
    exact stepText_expression hd (fun heq => hc.comment (Option.some.inj heq))
      fun heq => hc.escape (Option.some.inj heq)
  refine ⟨_, scanFrom_of_step hstep, ?_, ScanState.literal_flush st, ?_⟩
  · simp
  · have htokens := ScanState.tokens_emit (ScanState.literal_flush st) .startDelimiter d.start.utf8Size
    rw [ScanState.tokens_flush] at htokens
    exact (ScanState.tokens_openings _ _).trans htokens

/-- What is scanned as an expression is between its delimiters. -/
theorem scans_tag (h : st.InText) {inner rest : List Char} {ts : List Token}
    (hinner : ∃ c more, inner = c :: more ∧ BeginsToken c)
    (hscan : ∀ st₁ offset, st₁.openings = .expression offset :: st.openings → st₁.literal = [] →
      Scans d st₁ inner (d.stop :: rest) ts) :
    Scans d st (d.start :: (inner ++ [d.stop])) rest (.startDelimiter :: (ts ++ [.stopDelimiter])) := by
  obtain ⟨c, more, rfl, hc⟩ := hinner
  obtain ⟨st₁, hscan₁, hopen₁, hliteral₁, htokens₁⟩ := scanFrom_start hd h hc (more ++ d.stop :: rest)
  obtain ⟨st₂, hscan₂, hopen₂, hliteral₂, htokens₂⟩ := hscan st₁ st.pos hopen₁ hliteral₁
  obtain ⟨st₃, hscan₃, hopen₃, hliteral₃, htokens₃⟩ := scanFrom_stop hd (hopen₂.trans hopen₁) hliteral₂ rest
  refine ⟨st₃, ?_, hopen₃, hliteral₃, ?_⟩
  · calc scanFrom d st (d.start :: (c :: more ++ [d.stop]) ++ rest)
        = scanFrom d st (d.start :: c :: (more ++ d.stop :: rest)) := by simp
      _ = scanFrom d st₁ (c :: more ++ d.stop :: rest) := hscan₁
      _ = scanFrom d st₃ rest := by rw [hscan₂, hscan₃]
  · rw [htokens₃, htokens₂, htokens₁]
    simp

end

/-! ## Bodies in braces -/

theorem dropWhile_isAsciiBlank {c : Char} (hc : isBlank c = false) (cs : List Char) :
    (c :: cs).dropWhile isAsciiBlank = c :: cs := by
  have : isAsciiBlank c = false := by
    rw [← Bool.not_eq_true]
    intro h
    rw [isBlank_of_isAsciiBlank h] at hc
    cases hc
  simp [this]

/-- Where no word stands there is no header. -/
theorem header?_eq_none {c : Char} (hblank : isBlank c = false) (hword : isWordPart c = false) (pos : Nat)
    (cs : List Char) : header? pos (c :: cs) = none := by
  have hstart : isWordStart c = false := by
    rw [← Bool.not_eq_true]
    intro h
    rw [isWordPart_of_isWordStart h] at hword
    cases hword
  have hsplit : splitWord? ((c :: cs).dropWhile isAsciiBlank) = none := by
    rw [dropWhile_isAsciiBlank hblank, splitWord?, hstart]
    rfl
  rw [header?]
  split
  · rfl
  · next hw =>
    rw [hsplit] at hw
    cases hw

theorem splitWord?_word {name : String} (hname : isWord name.toList = true) {rest : List Char}
    (hrest : Boundary rest) :
    splitWord? ((name.toList ++ rest).dropWhile isAsciiBlank) = some (name.toList, rest) := by
  cases hcs : name.toList with
  | nil => rw [hcs] at hname; cases hname
  | cons c more =>
    rw [hcs, isWord, Bool.and_eq_true] at hname
    obtain ⟨hc, hmore⟩ := hname
    obtain ⟨htake, hdrop⟩ := span_append (List.all_eq_true.1 hmore) hrest
    have hblank := (beginsToken_of_isWordPart (isWordPart_of_isWordStart hc)).blank
    rw [List.cons_append, dropWhile_isAsciiBlank hblank, splitWord?, if_pos hc, htake, hdrop]

section
variable {cs name rest : List Char} (pos : Nat)

/-- A header goes on after a comma. -/
theorem header?_comma (h : splitWord? (cs.dropWhile isAsciiBlank) = some (name, ',' :: rest)) :
    ∃ word comma pos', word.token = .word (String.ofList name) ∧ comma.token = .comma ∧
      header? pos cs = (header? pos' rest).map fun (tokens, p, after) => (word :: comma :: tokens, p, after) := by
  have hcomma : (',' :: rest).dropWhile isAsciiBlank = ',' :: rest := dropWhile_isAsciiBlank (by decide) rest
  rw [header?]
  split
  · next hw => rw [h] at hw; cases hw
  · next hw =>
    rw [h] at hw
    cases hw
    dsimp only
    split
    · next heq =>
      rw [hcomma] at heq
      cases heq
      exact ⟨_, _, _, rfl, rfl, rfl⟩
    · next heq => rw [hcomma] at heq; cases heq
    · next hne _ => exact absurd hcomma (hne rest)

/-- A header ends with a bar. -/
theorem header?_pipe (h : splitWord? (cs.dropWhile isAsciiBlank) = some (name, '|' :: rest)) :
    ∃ word pipe pos', word.token = .word (String.ofList name) ∧ pipe.token = .pipe ∧
      header? pos cs = some ([word, pipe], pos', rest.dropWhile isInlineBlank) := by
  have hpipe : ('|' :: rest).dropWhile isAsciiBlank = '|' :: rest := dropWhile_isAsciiBlank (by decide) rest
  rw [header?]
  split
  · next hw => rw [h] at hw; cases hw
  · next hw =>
    rw [h] at hw
    cases hw
    dsimp only
    split
    · next heq => rw [hpipe] at heq; cases heq
    · next heq =>
      rw [hpipe] at heq
      cases heq
      exact ⟨_, _, _, rfl, rfl, rfl⟩
    · next hne => exact absurd hpipe (hne rest)

end

/-- Printed parameters are read as they were, up to the bar. -/
theorem header?_parameters {params : List String} (hne : params ≠ [])
    (hwords : ∀ p ∈ params, isWord p.toList = true) {rest : List Char}
    (hrest : ∀ c ∈ rest.head?, isBlank c = false) (pos : Nat) :
    ∃ located pos', header? pos (sources d (parameterTokens params) ++ rest) = some (located, pos', rest) ∧
      located.map (·.token) = parameterTokens params := by
  induction params generalizing pos with
  | nil => exact absurd rfl hne
  | cons p ps ih =>
    have hp := hwords p List.mem_cons_self
    have hname : String.ofList p.toList = p := String.ofList_toList
    cases ps with
    | nil =>
      have hsources : sources d (parameterTokens [p]) ++ rest = p.toList ++ '|' :: rest := by
        simp [sources, parameterTokens, Token.source]
      -- Spaces behind the bar are not part of the body, so `rest` must not begin with one.
      have hdrop : rest.dropWhile isInlineBlank = rest := by
        cases rest with
        | nil => rfl
        | cons c rest =>
          have hc : isInlineBlank c = false := by
            rw [← Bool.not_eq_true]
            intro h
            have := hrest c rfl
            rw [isBlank_of_isInlineBlank h] at this
            cases this
          simp [hc]
      have hsplit := splitWord?_word hp (boundary_cons (show isWordPart '|' = false by decide) rest)
      obtain ⟨word, pipe, pos', hword, hpipe, hheader⟩ := header?_pipe pos hsplit
      refine ⟨[word, pipe], pos', ?_, ?_⟩
      · rw [hsources, hheader, hdrop]
      · simp [parameterTokens, hword, hpipe, hname]
    | cons q ps =>
      have hsources : sources d (parameterTokens (p :: q :: ps)) ++ rest =
          p.toList ++ ',' :: (sources d (parameterTokens (q :: ps)) ++ rest) := by
        simp [sources, parameterTokens, Token.source]
      have hsplit := splitWord?_word hp (boundary_cons (show isWordPart ',' = false by decide)
        (sources d (parameterTokens (q :: ps)) ++ rest))
      obtain ⟨word, comma, pos', hword, hcomma, hheader⟩ := header?_comma pos hsplit
      have hwords' : ∀ p ∈ q :: ps, isWord p.toList = true := fun r hr => hwords r (List.mem_cons_of_mem p hr)
      obtain ⟨located, stop, hmore, htokens⟩ := ih (List.cons_ne_nil q ps) hwords' pos'
      refine ⟨word :: comma :: located, stop, ?_, ?_⟩
      · rw [hsources, hheader, hmore]
        rfl
      · simp [parameterTokens, hword, hcomma, hname, htokens]

section
variable (hd : d.admissible = true) {offset : Nat} {os : List Opening}
include hd

/-- An opening brace opens a body, after its header if it has one. -/
theorem step_brace (hst : st.openings = .expression offset :: os) {cs after : List Char}
    {found : List (Located Token)}
    (h : (∃ pos, header? (st.pos + 1) cs = some (found, pos, after)) ∨
      (header? (st.pos + 1) cs = none ∧ found = [] ∧ after = cs)) :
    ∃ st', step d st '\x7b' cs = .ok (st', after) ∧ st'.openings = .braces st.pos :: st.openings ∧
      st'.literal = st.literal ∧
      st'.emitted.map (·.token) = (found.map (·.token)).reverse ++ .braceOpen :: st.emitted.map (·.token) := by
  have hstop : '\x7b' ≠ d.stop := ne_stop_of_isReserved hd (by decide)
  have hblank : isBlank '\x7b' = false := by decide
  have hpos : (st.emit .braceOpen 1).pos = st.pos + 1 := rfl
  rw [step, hst]
  simp only [stepExpression, hblank, beq_eq_false_iff_ne.2 hstop, beq_self_eq_true, Bool.false_eq_true,
    if_false, if_true, hpos]
  rcases h with ⟨pos, h⟩ | ⟨h, rfl, rfl⟩
  · rw [h]
    exact ⟨_, rfl, by rw [hst], rfl, by simp [ScanState.emit]⟩
  · rw [h]
    exact ⟨_, rfl, by rw [hst], rfl, by simp [ScanState.emit]⟩

/-- An opening brace and the parameters after it, before the comment with which every body begins. -/
theorem scanFrom_braceOpen (hst : st.openings = .expression offset :: os) (hliteral : st.literal = [])
    {params : List String} (hwords : ∀ p ∈ params, isWord p.toList = true) (rest : List Char) :
    ∃ st', scanFrom d st ('\x7b' :: (sources d (parameterTokens params) ++ (emptyComment d ++ rest))) =
        scanFrom d st' (emptyComment d ++ rest) ∧
      st'.openings = .braces st.pos :: st.openings ∧ st'.literal = [] ∧
      st'.tokens = st.tokens ++ .braceOpen :: parameterTokens params := by
  have hstart := (Delimiters.isReserved_eq_false hd).1
  have hheader : ∃ found : List (Located Token), found.map (·.token) = parameterTokens params ∧
      ((∃ pos, header? (st.pos + 1) (sources d (parameterTokens params) ++ (emptyComment d ++ rest)) =
          some (found, pos, emptyComment d ++ rest)) ∨
        (header? (st.pos + 1) (sources d (parameterTokens params) ++ (emptyComment d ++ rest)) = none ∧
          found = [] ∧
          emptyComment d ++ rest = sources d (parameterTokens params) ++ (emptyComment d ++ rest))) := by
    cases params with
    | nil =>
      have hnone := header?_eq_none (isBlank_of_not_isReserved hstart) (isWordPart_of_not_isReserved hstart)
        (st.pos + 1) ('!' :: '!' :: d.stop :: rest)
      exact ⟨[], rfl, .inr ⟨hnone, rfl, rfl⟩⟩
    | cons p ps =>
      have hhead : ∀ c ∈ (emptyComment d ++ rest).head?, isBlank c = false := by
        rintro _ ⟨⟩
        exact isBlank_of_not_isReserved hstart
      obtain ⟨found, pos, hsome, htokens⟩ :=
        header?_parameters (d := d) (List.cons_ne_nil p ps) hwords hhead (st.pos + 1)
      exact ⟨found, htokens, .inl ⟨pos, hsome⟩⟩
  obtain ⟨found, hfound, hheader⟩ := hheader
  obtain ⟨st', hstep, hopen, hliteral', hemitted⟩ := step_brace hd hst hheader
  refine ⟨st', scanFrom_of_step hstep, hopen, hliteral'.trans hliteral, ?_⟩
  rw [ScanState.tokens_of_literal_eq_nil (hliteral'.trans hliteral), ScanState.tokens_of_literal_eq_nil hliteral,
    List.map_reverse, List.map_reverse, hemitted, hfound]
  simp

end

/-- The closing brace ends the body, and the literal text at its end. -/
theorem scanFrom_braceClose {offset : Nat} {os : List Opening} (hst : st.openings = .braces offset :: os)
    (rest : List Char) :
    ∃ st', scanFrom d st ('\x7d' :: rest) = scanFrom d st' rest ∧ st'.openings = os ∧ st'.literal = [] ∧
      st'.tokens = st.tokens ++ [.braceClose] := by
  have hbraces : st.inBraces = true := by rw [ScanState.inBraces, hst]
  have htext : st.InText := by
    rintro _ _ h
    rw [hst] at h
    cases h
  have hstep : step d st '\x7d' rest = .ok ((st.flush.emit .braceClose 1).close, rest) := by
    rw [step_of_inText htext]
    unfold stepText
    simp [hbraces]
  have hliteral : st.flush.literal = [] := ScanState.literal_flush st
  refine ⟨_, scanFrom_of_step hstep, ?_, hliteral, ?_⟩
  · simp [ScanState.close, ScanState.emit, hst]
  · have hemit : (st.flush.emit .braceClose 1).literal = [] := hliteral
    rw [ScanState.tokens_close hemit, ScanState.tokens_emit hliteral, ScanState.tokens_flush]

/-! ## Nodes and targets -/

/-- Scanning the text with `rest` after it adds the tokens and closes what it opens; literal text may be
pending. -/
def ScansText (d : Delimiters) (st : ScanState) (cs rest : List Char) (ts : List Token) : Prop :=
  ∃ st', scanFrom d st (cs ++ rest) = scanFrom d st' rest ∧ st'.openings = st.openings ∧
    st'.tokens = st.tokens ++ ts

theorem ScanState.inBraces_congr {st' : ScanState} (h : st'.openings = st.openings) :
    st'.inBraces = st.inBraces := by
  rw [inBraces, h, inBraces]

theorem ScanState.InText.congr {st' : ScanState} (h : st.InText) (hopen : st'.openings = st.openings) :
    st'.InText := by
  intro offset os
  rw [hopen]
  exact h offset os

theorem Scans.appendText {cs cs' rest : List Char} {ts ts' : List Token} (h : Scans d st cs (cs' ++ rest) ts)
    (h' : ∀ st', st'.openings = st.openings → st'.literal = [] → ScansText d st' cs' rest ts') :
    ScansText d st (cs ++ cs') rest (ts ++ ts') := by
  obtain ⟨st₁, hscan₁, hopen₁, hliteral₁, htokens₁⟩ := h
  obtain ⟨st₂, hscan₂, hopen₂, htokens₂⟩ := h' st₁ hopen₁ hliteral₁
  refine ⟨st₂, ?_, hopen₂.trans hopen₁, ?_⟩
  · rw [List.append_assoc, hscan₁, hscan₂]
  · rw [htokens₂, htokens₁, List.append_assoc]

theorem ScansText.append {cs cs' rest : List Char} {ts ts' : List Token} (h : ScansText d st cs (cs' ++ rest) ts)
    (h' : ∀ st', st'.openings = st.openings → Scans d st' cs' rest ts') :
    Scans d st (cs ++ cs') rest (ts ++ ts') := by
  obtain ⟨st₁, hscan₁, hopen₁, htokens₁⟩ := h
  obtain ⟨st₂, hscan₂, hopen₂, hliteral₂, htokens₂⟩ := h' st₁ hopen₁
  refine ⟨st₂, ?_, hopen₂.trans hopen₁, hliteral₂, ?_⟩
  · rw [List.append_assoc, hscan₁, hscan₂]
  · rw [htokens₂, htokens₁, List.append_assoc]

theorem Scannable.head {t : Token} {ts : List Token} {rest : List Char} (h : Scannable d (t :: ts) rest) :
    ∃ c more, sources d (t :: ts) = c :: more ∧ BeginsToken c := by
  have hend : Boundary [] := by
    intro c hc
    cases hc
  obtain ⟨c, more, hsource, htakes⟩ := takesToken_source d h.1 fun _ => hend
  refine ⟨c, more ++ sources d ts, ?_, htakes.beginsToken⟩
  rw [sources, List.flatMap_cons, hsource]
  rfl

theorem boundary_targets {σ : Type} (ts : List (Target σ)) {rest : List Char} (hrest : Boundary rest) :
    Boundary (Target.printAll d ts ++ rest) := by
  cases ts with
  | nil => exact hrest
  | cons t ts =>
    cases t with
    | anonymous params body place => exact boundary_cons (by decide) _
    | named name place => exact boundary_cons (by decide) _

section
variable {σ : Type} (hd : d.admissible = true)
include hd

theorem boundary_stop (rest : List Char) : Boundary (d.stop :: rest) :=
  boundary_cons (isWordPart_of_not_isReserved (Delimiters.isReserved_eq_false hd).2) rest

/-- A tag that consists of tokens. -/
theorem scans_tokens (h : st.InText) {t : Token} {ts : List Token} {rest : List Char}
    (hts : Scannable d (t :: ts) (d.stop :: rest)) :
    Scans d st (d.start :: (sources d (t :: ts) ++ [d.stop])) rest
      (.startDelimiter :: (t :: ts ++ [.stopDelimiter])) :=
  scans_tag hd h hts.head fun _ _ hopen hliteral => scans_sources hd hopen hliteral hts

/-- Literal text with what comes after it, which is no literal text. -/
theorem scans_literal (h : st.InText) (hliteral : st.literal = []) {text : String} {place : σ}
    (hn : Node.wellFormed (.literal text place) = true) {cs rest : List Char} {ts : List Token}
    (hrest : ∀ st', st'.openings = st.openings → ScansText d st' cs rest ts) :
    ScansText d st (Node.print d st.inBraces (.literal text place) ++ cs) rest
      (Node.tokens (.literal text place) ++ ts) := by
  obtain ⟨st₁, hscan₁, hopen₁, hliteral₁, hemitted₁⟩ := scanFrom_printText hd h text.toList (cs ++ rest)
  obtain ⟨st₂, hscan₂, hopen₂, htokens₂⟩ := hrest st₁ hopen₁
  have htext : text.toList ≠ [] := by simpa [Node.wellFormed] using hn
  have htokens₁ : st₁.tokens = st.tokens ++ [.text text] := by
    rw [hliteral, List.append_nil] at hliteral₁
    rw [ScanState.tokens_of_literal hemitted₁ hliteral htext hliteral₁, String.ofList_toList]
  refine ⟨st₂, ?_, hopen₂.trans hopen₁, ?_⟩
  · rw [List.append_assoc, Node.print, hscan₁, hscan₂]
  · rw [htokens₂, htokens₁, List.append_assoc]
    rfl

theorem scans_slot (h : st.InText) {name : String} (hname : isName name = true) (rest : List Char) (place : σ) :
    Scans d st (Node.print d st.inBraces (.slot name place)) rest (Node.tokens (.slot name place)) :=
  scans_tokens hd h (.cons trivial rfl ⟨hname, fun _ => boundary_cons (by decide) _,
    .cons trivial rfl (.cons trivial rfl trivial)⟩)

theorem scans_region (h : st.InText) {name : String} (hname : isName name = true) {body : List (Node σ)}
    (hbody : ∀ st', st'.openings = st.openings → st'.literal = [] →
      ∀ rest, ScansText d st' (Node.printAll d st.inBraces body) rest (Node.tokensAll body))
    (rest : List Char) (place : σ) :
    Scans d st (Node.print d st.inBraces (.region name body place)) rest
      (Node.tokens (.region name body place)) := by
  have hhead : ∀ name rest, isName name = true → Scannable d [.atSign, .word name] (d.stop :: rest) :=
    fun name rest hname => .cons trivial rfl ⟨hname, fun _ => boundary_stop hd rest, trivial⟩
  rw [Node.print, Node.tokens]
  refine ScansText.append ((scans_tokens hd h (hhead name _ hname)).appendText ?_) ?_
  · exact fun st' hopen hliteral => hbody st' hopen hliteral _
  · exact fun st' hopen => scans_tokens hd (h.congr hopen) (hhead "end" rest (by decide))

theorem scans_expression (h : st.InText) {p : Primary σ} (hp : p.wellFormed = true) {ts : List (Target σ)}
    (hts : ∀ st' offset os, st'.openings = .expression offset :: os → st'.literal = [] →
      ∀ rest, Scans d st' (Target.printAll d ts) rest (Target.tokensAll ts))
    {o : Options} (ho : o.wellFormed = true) (rest : List Char) (place : σ) :
    Scans d st (Node.print d st.inBraces (.expression p ts o place)) rest
      (Node.tokens (.expression p ts o place)) := by
  have hstop := boundary_stop hd rest
  have hprimary : Scannable d p.tokens (Target.printAll d ts ++ (sources d o.tokens ++ d.stop :: rest)) :=
    scannable_primary hp (boundary_targets ts (boundary_options o hstop))
  have hhead : ∃ c more, sources d p.tokens = c :: more ∧ BeginsToken c := by
    cases hp' : p.tokens with
    | nil => cases p <;> cases hp'
    | cons t tokens => exact (hp' ▸ hprimary).head
  obtain ⟨c, more, hsources, hc⟩ := hhead
  rw [Node.print, Node.tokens]
  refine scans_tag hd h ⟨c, _, by rw [hsources]; rfl, hc⟩ fun st₁ offset hopen hliteral => ?_
  refine Scans.append (Scans.append ?_ ?_) ?_
  · exact scans_sources hd hopen hliteral hprimary
  · exact fun st₂ hopen₂ hliteral₂ => hts st₂ _ _ (hopen₂.trans hopen) hliteral₂ _
  · exact fun st₂ hopen₂ hliteral₂ => scans_sources hd (hopen₂.trans hopen) hliteral₂ (scannable_options ho hstop)

theorem scans_named {offset : Nat} {os : List Opening} (hst : st.openings = .expression offset :: os)
    (hliteral : st.literal = []) {name : String} (hname : isName name = true) (rest : List Char) (place : σ) :
    Scans d st (Target.print d (.named name place : Target σ)) rest
      (Target.tokens (.named name place : Target σ)) :=
  scans_sources hd hst hliteral (.cons trivial rfl ⟨hname, fun _ => boundary_cons (by decide) _,
    .cons trivial rfl (.cons trivial rfl trivial)⟩)

theorem scans_anonymous {offset : Nat} {os : List Opening} (hst : st.openings = .expression offset :: os)
    (hliteral : st.literal = []) {params : List String} (hwords : ∀ p ∈ params, isWord p.toList = true)
    {body : List (Node σ)}
    (hbody : ∀ st', st'.InText → st'.inBraces = true → st'.literal = [] →
      ∀ rest, ScansText d st' (Node.printAll d true body) rest (Node.tokensAll body))
    (rest : List Char) (place : σ) :
    Scans d st (Target.print d (.anonymous params body place)) rest
      (Target.tokens (.anonymous params body place)) := by
  have hcolon : Scans d st (sources d [.colon])
      ('\x7b' :: (sources d (parameterTokens params) ++ (emptyComment d ++
        (Node.printAll d true body ++ '\x7d' :: rest)))) [.colon] :=
    scans_sources hd hst hliteral (.cons trivial rfl trivial)
  obtain ⟨st₁, hscan₁, hopen₁, hliteral₁, htokens₁⟩ := hcolon
  obtain ⟨st₂, hscan₂, hopen₂, hliteral₂, htokens₂⟩ := scanFrom_braceOpen hd (hopen₁.trans hst) hliteral₁ hwords
    (Node.printAll d true body ++ '\x7d' :: rest)
  have htext₂ : st₂.InText := by
    rintro offset os h
    rw [hopen₂] at h
    cases h
  have hbraces₂ : st₂.inBraces = true := by rw [ScanState.inBraces, hopen₂]
  obtain ⟨st₃, hscan₃, hopen₃, hliteral₃, hemitted₃⟩ := scanFrom_emptyComment hd htext₂
    (Node.printAll d true body ++ '\x7d' :: rest)
  have htokens₃ : st₃.tokens = st₂.tokens := by
    rw [ScanState.tokens_of_literal_eq_nil hliteral₂,
      ScanState.tokens_of_literal_eq_nil (hliteral₃.trans hliteral₂), hemitted₃]
  obtain ⟨st₄, hscan₄, hopen₄, htokens₄⟩ := hbody st₃ (htext₂.congr hopen₃)
    ((ScanState.inBraces_congr hopen₃).trans hbraces₂) (hliteral₃.trans hliteral₂) ('\x7d' :: rest)
  have hopen₄' : st₄.openings = .braces st₁.pos :: st₁.openings := hopen₄.trans (hopen₃.trans hopen₂)
  obtain ⟨st₅, hscan₅, hopen₅, hliteral₅, htokens₅⟩ := scanFrom_braceClose hopen₄' rest
  refine ⟨st₅, ?_, hopen₅.trans hopen₁, hliteral₅, ?_⟩
  · have htext : Target.print d (.anonymous params body place) ++ rest = sources d [.colon] ++
        '\x7b' :: (sources d (parameterTokens params) ++ (emptyComment d ++
          (Node.printAll d true body ++ '\x7d' :: rest))) := by
      simp [Target.print, sources, Token.source]
    rw [htext, hscan₁, hscan₂, hscan₃, hscan₄, hscan₅]
  · rw [htokens₅, htokens₄, htokens₃, htokens₂, htokens₁]
    simp [Target.tokens]

mutual

/-- Printed nodes are scanned as their tokens. Literal text may be pending only before another node. -/
theorem scans_nodes {ns : List (Node σ)} (hns : Node.wellFormedAll ns = true) {st : ScanState} (h : st.InText)
    (hliteral : st.literal = [] ∨ Node.startsWithLiteral ns = false) (rest : List Char) :
    ScansText d st (Node.printAll d st.inBraces ns) rest (Node.tokensAll ns) := by
  match ns with
  | [] => exact ⟨st, rfl, rfl, (List.append_nil _).symm⟩
  | n :: ns =>
    rw [Node.wellFormedAll, Bool.and_eq_true, Bool.and_eq_true] at hns
    obtain ⟨⟨hn, hadjacent⟩, hns⟩ := hns
    -- Text is pending only behind a literal, and then no literal follows.
    have hrest : ∀ st' : ScanState, st'.openings = st.openings →
        (st'.literal = [] ∨ Node.startsWithLiteral ns = false) →
        ScansText d st' (Node.printAll d st.inBraces ns) rest (Node.tokensAll ns) := by
      intro st' hopen hliteral'
      rw [← ScanState.inBraces_congr hopen]
      exact scans_nodes hns (h.congr hopen) hliteral' rest
    match hnode : n with
    | .literal text place =>
      have hst : st.literal = [] := by simpa [Node.startsWithLiteral] using hliteral
      have hnext : Node.startsWithLiteral ns = false := by simpa [Node.startsWithLiteral] using hadjacent
      exact scans_literal hd h hst hn fun st' hopen => hrest st' hopen (.inr hnext)
    | .slot name place =>
      rw [Node.wellFormed, Bool.and_eq_true] at hn
      exact (scans_slot hd h hn.1 _ place).appendText fun st' hopen hliteral' => hrest st' hopen (.inl hliteral')
    | .region name body place =>
      rw [Node.wellFormed, Bool.and_eq_true, Bool.and_eq_true] at hn
      refine (scans_region hd h hn.1.1 ?_ _ place).appendText fun st' hopen hliteral' =>
        hrest st' hopen (.inl hliteral')
      intro st' hopen hliteral' rest
      rw [← ScanState.inBraces_congr hopen]
      exact scans_nodes hn.2 (h.congr hopen) (.inl hliteral') rest
    | .expression p ts o place =>
      rw [Node.wellFormed, Bool.and_eq_true, Bool.and_eq_true] at hn
      refine (scans_expression hd h hn.1.1 ?_ hn.2 _ place).appendText fun st' hopen hliteral' =>
        hrest st' hopen (.inl hliteral')
      exact fun st' offset os hopen hliteral' rest => scans_targets hn.1.2 hopen hliteral' rest
termination_by sizeOf ns
decreasing_by all_goals (simp +arith [*])

/-- Printed targets are scanned as their tokens. -/
theorem scans_targets {ts : List (Target σ)} (hts : Target.wellFormedAll ts = true) {st : ScanState}
    {offset : Nat} {os : List Opening} (hst : st.openings = .expression offset :: os) (hliteral : st.literal = [])
    (rest : List Char) : Scans d st (Target.printAll d ts) rest (Target.tokensAll ts) := by
  match ts with
  | [] => exact .nil hliteral
  | .named name place :: ts =>
    rw [Target.wellFormedAll, Bool.and_eq_true] at hts
    exact (scans_named hd hst hliteral hts.1 _ place).append fun st' hopen hliteral' =>
      scans_targets hts.2 (hopen.trans hst) hliteral' rest
  | .anonymous params body place :: ts =>
    rw [Target.wellFormedAll, Bool.and_eq_true, Target.wellFormed, Bool.and_eq_true, Bool.and_eq_true] at hts
    obtain ⟨⟨⟨-, hwords⟩, hbody⟩, hts⟩ := hts
    refine (scans_anonymous hd hst hliteral (List.all_eq_true.1 hwords) ?_ _ place).append ?_
    · intro st' htext hbraces hliteral' rest
      rw [← hbraces]
      exact scans_nodes hbody htext (.inl hliteral') rest
    · exact fun st' hopen hliteral' => scans_targets hts (hopen.trans hst) hliteral' rest
termination_by sizeOf ts
decreasing_by all_goals (simp +arith [*])

end

/-- **Scanning undoes printing.** The text of a well-formed tree is scanned as the tokens of the tree. -/
theorem scan_printAll {ns : List (Node σ)} (hns : Node.wellFormedAll ns = true) :
    ∃ located, scan d (Node.printAll d false ns) = .ok located ∧
      located.map (·.token) = Node.tokensAll ns := by
  have htext : ({} : ScanState).InText := by
    rintro offset os ⟨⟩
  obtain ⟨st, hscan, hopen, htokens⟩ := scans_nodes hd hns htext (.inl rfl) []
  have hopen' : st.openings = [] := hopen
  refine ⟨st.flush.emitted.reverse, ?_, htokens⟩
  rw [List.append_nil] at hscan
  calc scan d (Node.printAll d false ns) = scanFrom d st [] := hscan
    _ = finish d st := by rw [scanFrom]
    _ = .ok st.flush.emitted.reverse := by rw [finish, hopen']

end

end Stencil.Template
