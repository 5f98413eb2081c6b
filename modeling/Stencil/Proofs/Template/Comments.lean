import Stencil.Proofs.Template.Places

/-!
# Comments in templates

A comment may stand wherever the scanner is in literal text between two of its steps (`TextPlace`), but not behind a
backslash that is literal text, which would take the start delimiter for its own. The steps up to such a place are the
same with a start delimiter behind it (`step_insert`, `Reaches.scanFrom_eq`), and the comment itself is passed over
(`step_comment`).

Main statement: `tree?_comment`.
-/

namespace Stencil.Template

variable {d : Delimiters} {st st' : ScanState} {c : Char} {more front after rest : List Char}

/-! ## The end of a comment -/

theorem skipComment_cons (stop c : Char) (cs : List Char) :
    skipComment stop (c :: cs) =
      if c = '!' ∧ cs.head? = some stop then some (1 + stop.utf8Size, cs.tail)
      else (skipComment stop cs).map fun found => (c.utf8Size + found.1, found.2) := by
  rw [skipComment.eq_def]
  cases cs with
  | nil => by_cases hc : c = '!' <;> simp [hc]
  | cons x rest => by_cases hc : c = '!' <;> by_cases hx : x = stop <;> simp [hc, hx]

/-- A comment ends at the first exclamation mark that the stop delimiter follows. -/
theorem skipComment_append {stop : Char} (hstop : stop ≠ '!') {text : List Char} (htext : ¬ ['!', stop] <:+: text)
    (rest : List Char) :
    skipComment stop (text ++ '!' :: stop :: rest) = some (byteLength (text ++ ['!', stop]), rest) := by
  induction text with
  | nil =>
    have hsign : '!'.utf8Size = 1 := rfl
    simp [skipComment_cons, hsign]
  | cons c text ih =>
    have hinfix : ¬ ['!', stop] <:+: text := fun h => htext (h.trans (List.suffix_cons c text).isInfix)
    rw [List.cons_append, skipComment_cons, if_neg, ih hinfix]
    · rfl
    · rintro ⟨rfl, hhead⟩
      cases text with
      | nil => exact hstop (Option.some.inj hhead).symm
      | cons x text =>
        cases hhead
        exact htext ⟨[], text, rfl⟩

/-- Where a comment ends does not depend on what stands behind it. -/
theorem skipComment_replace {stop : Char} {body : List Char} {n : Nat}
    (h : skipComment stop (body ++ '!' :: stop :: rest) = some (n, rest)) (rest' : List Char) :
    skipComment stop (body ++ '!' :: stop :: rest') = some (n, rest') := by
  induction body generalizing n with
  | nil =>
    simp only [List.nil_append, skipComment_cons, List.head?_cons, and_self, if_true] at h ⊢
    cases h
    rfl
  | cons c body ih =>
    have hhead : (body ++ '!' :: stop :: rest').head? = (body ++ '!' :: stop :: rest).head? := by
      cases body <;> rfl
    rw [List.cons_append, skipComment_cons] at h
    rw [List.cons_append, skipComment_cons, hhead]
    split at h
    · -- The comment would end in front of the rest already.
      have hlength := congrArg List.length (Prod.mk.inj (Option.some.inj h)).2
      rw [List.length_tail, List.length_append, List.length_cons, List.length_cons] at hlength
      omega
    · next hend =>
      obtain ⟨⟨bytes, after⟩, hskip, heq⟩ := Option.map_eq_some_iff.1 h
      cases heq
      rw [if_neg hend, ih hskip]
      rfl

/-! ## Places -/

/-- The scanner gets from the first state to the second one by steps over the text before the place. -/
inductive Reaches (d : Delimiters) : ScanState → List Char → ScanState → List Char → Prop where
  | here (st : ScanState) (after : List Char) : Reaches d st [] st after
  | behind {st st₁ st₂ : ScanState} {c : Char} {more before after : List Char} :
    step d st c (more ++ (before ++ after)) = .ok (st₁, before ++ after) → Reaches d st₁ before st₂ after →
    Reaches d st (c :: (more ++ before)) st₂ after

/-- The place is in literal text: at the top level, in the body of a region or in that of an anonymous template behind
its header, and between two characters, escapes, comments or expressions. -/
def TextPlace (d : Delimiters) (before after : List Char) : Prop :=
  ∃ st, Reaches d {} before st after ∧ st.InText

/-! ## What stands behind a step -/

theorem Header.isReserved {text : List Char} {ts : List Token} (h : Header text ts) :
    ∀ c ∈ text, isReserved c = true := by
  have hblank : ∀ blanks : List Char, (∀ c ∈ blanks, isAsciiBlank c = true) →
      ∀ c ∈ blanks, Template.isReserved c = true := by
    intro blanks hblanks c hc
    rw [Template.isReserved, isBlank_of_isAsciiBlank (hblanks c hc)]
    rfl
  have hword : ∀ name : List Char, isWord name = true → ∀ c ∈ name, Template.isReserved c = true := by
    intro name hname c hc
    exact (beginsToken_of_isWordPart (isWordPart_of_isWord hname c hc)).reserved
  induction h with
  | last hblanks hname hgap =>
    simp only [List.forall_mem_append, List.forall_mem_singleton]
    exact ⟨hblank _ hblanks, hword _ hname, hblank _ hgap, by decide⟩
  | cons hblanks hname hgap _ ih =>
    simp only [List.forall_mem_append, List.forall_mem_cons]
    exact ⟨hblank _ hblanks, hword _ hname, hblank _ hgap, by decide, ih⟩

/-- A step that leaves all behind the character it looks at has taken nothing else. -/
theorem eq_nil_of_ok {st₁ : ScanState}
    (h : (.ok (st₁, more ++ rest) : Except SyntaxError (ScanState × List Char)) = .ok (st', rest)) :
    more = [] ∧ st₁ = st' := by
  obtain ⟨hst, hrest⟩ := Prod.mk.inj (Except.ok.inj h)
  exact ⟨by simpa using hrest, hst⟩

section
variable (hd : d.admissible = true)
include hd

theorem header?_insert {pos p : Nat} {located : List Lexeme}
    (h : header? pos (more ++ (front ++ after)) = some (located, p, front ++ after)) (text : List Char) :
    header? pos (more ++ (front ++ d.start :: text)) = some (located, p, front ++ d.start :: text) := by
  obtain ⟨header, rest, hheader, hcs, hrest, -⟩ := header_of_header? h
  obtain ⟨located', p', -, hread⟩ := hheader.header? pos
  have hmore : more = header ++ rest.takeWhile isInlineBlank := by
    rw [← List.append_left_inj (front ++ after), hcs, hrest, List.append_assoc, List.takeWhile_append_dropWhile]
  have hblanks : ∀ x ∈ rest.takeWhile isInlineBlank, isInlineBlank x = true := fun _ => List.mem_takeWhile_imp
  have hstart : isInlineBlank d.start = false := by
    rw [← Bool.not_eq_true]
    intro h
    have hblank := isBlank_of_not_isReserved (Delimiters.isReserved_eq_false hd).1
    rw [isBlank_of_isInlineBlank h] at hblank
    cases hblank
  have hhead : ∀ x ∈ (front ++ after).head?, isInlineBlank x = false := by
    rw [hrest]
    exact fun x hx => not_of_mem_head?_dropWhile hx
  have hhead' : ∀ x ∈ (front ++ d.start :: text).head?, isInlineBlank x = false := by
    cases front with
    | nil =>
      rintro _ ⟨⟩
      exact hstart
    | cons x front => exact hhead
  have hread₁ := hread (rest.takeWhile isInlineBlank ++ (front ++ after))
  have hread₂ := hread (rest.takeWhile isInlineBlank ++ (front ++ d.start :: text))
  obtain ⟨htake, hdrop⟩ := span_append hblanks hhead
  obtain ⟨htake', hdrop'⟩ := span_append hblanks hhead'
  rw [htake, hdrop, ← List.append_assoc, ← hmore, h] at hread₁
  rw [htake', hdrop', ← List.append_assoc, ← hmore] at hread₂
  cases hread₁
  exact hread₂

theorem header?_insert_eq_none {pos : Nat} (h : header? pos (front ++ after) = none) (text : List Char) :
    header? pos (front ++ d.start :: text) = none := by
  cases h' : header? pos (front ++ d.start :: text) with
  | none => rfl
  | some found =>
    obtain ⟨header, rest, hheader, hcs, -⟩ := header_of_header? h'
    have hstart : d.start ∉ header := fun hmem => ne_start_of_isReserved hd (hheader.isReserved _ hmem) rfl
    obtain ⟨further, rfl⟩ : header <+: front := by
      rcases List.append_eq_append_iff.1 hcs with ⟨more, rfl, hmore⟩ | ⟨more, hfront, -⟩
      · cases more with
        | nil => simp
        | cons x more =>
          cases hmore
          exact absurd (List.mem_append_right front List.mem_cons_self) hstart
      · exact ⟨more, hfront.symm⟩
    obtain ⟨located', p', -, hread⟩ := hheader.header? pos
    rw [List.append_assoc, hread] at h
    cases h

/-- A brace takes the header behind it, if there is one. -/
theorem stepExpression_brace_insert
    (h : stepExpression d st '\x7b' (more ++ (front ++ after)) = .ok (st', front ++ after)) (text : List Char) :
    stepExpression d st '\x7b' (more ++ (front ++ d.start :: text)) = .ok (st', front ++ d.start :: text) := by
  have hblank : isBlank '\x7b' = false := by decide
  have hstop : '\x7b' ≠ d.stop := ne_stop_of_isReserved hd (by decide)
  rw [stepExpression, hblank, beq_eq_false_iff_ne.2 hstop] at h ⊢
  simp only [beq_self_eq_true, Bool.false_eq_true, if_false, if_true] at h ⊢
  split at h
  · next located p rest hheader =>
    cases h
    rw [header?_insert hd hheader]
  · next hheader =>
    obtain ⟨rfl, rfl⟩ := eq_nil_of_ok h
    rw [List.nil_append] at hheader ⊢
    rw [header?_insert_eq_none hd hheader]

theorem stepExpression_insert {offset : Nat} {os : List Opening} (hst : st.openings = .expression offset :: os)
    (h : stepExpression d st c (more ++ (front ++ after)) = .ok (st', front ++ after))
    (hplace : front = [] → st'.InText) (text : List Char) :
    stepExpression d st c (more ++ (front ++ d.start :: text)) = .ok (st', front ++ d.start :: text) := by
  by_cases hblank : isBlank c = true
  · rw [stepExpression, if_pos hblank] at h ⊢
    obtain ⟨rfl, rfl⟩ := eq_nil_of_ok h
    rfl
  · by_cases hstop : c = d.stop
    · subst hstop
      simp only [stepExpression, if_neg hblank, beq_self_eq_true, if_true] at h ⊢
      obtain ⟨rfl, rfl⟩ := eq_nil_of_ok h
      rfl
    · by_cases hbrace : c = '\x7b'
      · subst hbrace
        exact stepExpression_brace_insert hd h text
      · rw [Bool.not_eq_true] at hblank
        obtain ⟨t, htakes, rfl⟩ := (stepExpression_token_eq_ok_iff hblank hstop hbrace).1 h
        -- The expression is still open, so the place is not directly behind the token.
        have hfront : front ≠ [] := fun hfront => hplace hfront offset os hst
        refine (stepExpression_token_eq_ok_iff hblank hstop hbrace).2 ⟨t, htakes.replace ?_, rfl⟩
        rw [List.head?_append_of_ne_nil _ hfront, List.head?_append_of_ne_nil _ hfront]

omit hd in
/-- A backslash takes the next character with it or takes nothing. -/
theorem stepText_backslash_replace (h : stepText d st '\\' (more ++ rest) = .ok (st', rest)) {rest' : List Char}
    (hhead : more = [] → rest ≠ [] ∧ rest'.head? = rest.head?) :
    stepText d st '\\' (more ++ rest') = .ok (st', rest') := by
  have hcons : ∀ x cs, stepText d st '\\' (x :: cs) = if x == d.start || (st.inBraces && x == '\x7d') then
      .ok (st.keep x (1 + x.utf8Size), cs) else .ok (st.keep '\\' 1, x :: cs) := fun _ _ => by
    rw [stepText]
    rfl
  cases more with
  | nil =>
    -- Nothing is taken, so the next character is not one that a backslash keeps.
    obtain ⟨hne, hhead⟩ := hhead rfl
    obtain ⟨x, cs, rfl⟩ := List.exists_cons_of_ne_nil hne
    obtain ⟨cs', rfl⟩ : ∃ cs', rest' = x :: cs' := List.head?_eq_some_iff.1 hhead
    rw [List.nil_append, hcons] at h ⊢
    split at h
    · have hlength := congrArg List.length (Prod.mk.inj (Except.ok.inj h)).2
      rw [List.length_cons] at hlength
      omega
    · next hx =>
      cases h
      rw [if_neg hx]
  | cons x more =>
    rw [List.cons_append, hcons] at h ⊢
    split at h
    · next hx =>
      obtain ⟨rfl, rfl⟩ := eq_nil_of_ok h
      rw [if_pos hx]
      rfl
    · have hlength := congrArg List.length (Prod.mk.inj (Except.ok.inj h)).2
      rw [List.length_cons, List.length_append] at hlength
      omega

/-- Where a comment ends, the step ends, whatever stands there. -/
theorem stepText_comment_replace (h : stepText d st d.start (more ++ rest) = .ok (st', rest))
    (hsign : (more ++ rest).head? = some '!') (rest' : List Char) :
    stepText d st d.start (more ++ rest') = .ok (st', rest') := by
  obtain ⟨cs, hcs⟩ := List.head?_eq_some_iff.1 hsign
  rw [hcs, stepText_comment_eq_ok_iff hd] at h
  obtain ⟨bytes, hskip, rfl⟩ := h
  obtain ⟨body, rfl, -⟩ := skipComment_eq_some hskip
  obtain rfl : more = '!' :: (body ++ ['!', d.stop]) := List.append_cancel_right (hcs.trans (by simp))
  rw [List.cons_append, List.append_assoc, List.cons_append, List.singleton_append, stepText_comment_eq_ok_iff hd]
  exact ⟨bytes, skipComment_replace hskip rest', rfl⟩

/-- Where an escape tag ends, the step ends, whatever stands there. -/
theorem stepText_escapeTag_replace (h : stepText d st d.start (more ++ rest) = .ok (st', rest))
    (hescape : (more ++ rest).head? = some '\\') (rest' : List Char) :
    stepText d st d.start (more ++ rest') = .ok (st', rest') := by
  have hstop : d.stop ≠ '\\' := (ne_stop_of_isReserved hd (by decide)).symm
  obtain ⟨cs, hcs⟩ := List.head?_eq_some_iff.1 hescape
  rw [hcs, stepText_escapeTag_eq_ok_iff hd] at h
  obtain ⟨found, pos, htag, rfl⟩ := h
  obtain ⟨tag, chars, htext, hne, hunits, rfl, rfl⟩ := (escapeTag_eq_ok_iff hstop).1 htag
  obtain rfl : more = tag ++ [d.stop] := List.append_cancel_right (hcs.trans (htext.trans (by simp)))
  cases tag with
  | nil => exact absurd (List.cons.inj htext).1.symm hstop
  | cons x tag =>
    obtain rfl := (List.cons.inj htext).1
    rw [List.append_assoc, List.singleton_append, List.cons_append, stepText_escapeTag_eq_ok_iff hd]
    exact ⟨_, _, (escapeTag_eq_ok_iff hstop).2 ⟨'\\' :: tag, chars, rfl, hne, hunits, rfl, rfl⟩, rfl⟩

/-- A start delimiter that opens an expression has a character behind it that decides so. -/
theorem stepText_expression_replace (h : stepText d st d.start (more ++ rest) = .ok (st', rest))
    (hsign : (more ++ rest).head? ≠ some '!') (hescape : (more ++ rest).head? ≠ some '\\') {rest' : List Char}
    (hhead : ¬st'.InText → rest'.head? = rest.head?) :
    stepText d st d.start (more ++ rest') = .ok (st', rest') := by
  rw [stepText_expression hd hsign hescape] at h
  obtain ⟨rfl, rfl⟩ := eq_nil_of_ok h
  have hhead := hhead fun htext => htext _ _ rfl
  rw [List.nil_append] at hsign hescape ⊢
  exact stepText_expression hd (hhead ▸ hsign) (hhead ▸ hescape)

theorem stepText_insert (h : stepText d st c (more ++ (front ++ after)) = .ok (st', front ++ after))
    (hplace : front = [] → st'.InText ∧ (c :: more).getLast? ≠ some '\\') (text : List Char) :
    stepText d st c (more ++ (front ++ d.start :: text)) = .ok (st', front ++ d.start :: text) := by
  have hhead : front ≠ [] → (front ++ d.start :: text).head? = (front ++ after).head? := by
    intro hfront
    rw [List.head?_append_of_ne_nil _ hfront, List.head?_append_of_ne_nil _ hfront]
  by_cases hc : c = '\\'
  · subst hc
    refine stepText_backslash_replace h ?_
    rintro rfl
    have hfront : front ≠ [] := fun hfront => (hplace hfront).2 rfl
    exact ⟨List.append_ne_nil_of_left_ne_nil hfront after, hhead hfront⟩
  · by_cases hstart : c = d.start
    · subst hstart
      by_cases hsign : (more ++ (front ++ after)).head? = some '!'
      · exact stepText_comment_replace hd h hsign _
      · by_cases hescape : (more ++ (front ++ after)).head? = some '\\'
        · exact stepText_escapeTag_replace hd h hescape _
        · refine stepText_expression_replace hd h hsign hescape fun htext => hhead ?_
          exact fun hfront => htext (hplace hfront).1
    · -- Closing braces and plain characters are taken alone.
      have hstep : ∃ st₁, ∀ cs, stepText d st c cs = .ok (st₁, cs) := by
        unfold stepText
        rw [beq_eq_false_iff_ne.2 hc, beq_eq_false_iff_ne.2 hstart]
        cases st.inBraces && c == '\x7d' with
        | false => exact ⟨_, fun _ => rfl⟩
        | true => exact ⟨_, fun _ => rfl⟩
      obtain ⟨st₁, hstep⟩ := hstep
      rw [hstep] at h ⊢
      obtain ⟨rfl, rfl⟩ := eq_nil_of_ok h
      rfl

/-- A step is the same with a start delimiter behind it in place of something else. Directly behind what it takes
this is so where it leaves the scanner in literal text and has not taken a backslash. -/
theorem step_insert (h : step d st c (more ++ (front ++ after)) = .ok (st', front ++ after))
    (hplace : front = [] → st'.InText ∧ (c :: more).getLast? ≠ some '\\') (text : List Char) :
    step d st c (more ++ (front ++ d.start :: text)) = .ok (st', front ++ d.start :: text) := by
  unfold step at h ⊢
  split at h
  · next hst => exact stepExpression_insert hd hst h (fun hfront => (hplace hfront).1) text
  · exact stepText_insert hd h hplace text

/-- The steps up to a place of literal text are the same with a start delimiter there. -/
theorem Reaches.scanFrom_eq {before : List Char} (h : Reaches d st before st' after) (htext : st'.InText)
    (hlast : before.getLast? ≠ some '\\') (text : List Char) :
    scanFrom d st (before ++ d.start :: text) = scanFrom d st' (d.start :: text) ∧
      scanFrom d st (before ++ after) = scanFrom d st' after := by
  induction h with
  | here => exact ⟨rfl, rfl⟩
  | @behind st st₁ st₂ c more before after hstep hrest ih =>
    have hplace : before = [] → st₁.InText ∧ (c :: more).getLast? ≠ some '\\' := by
      rintro rfl
      cases hrest
      exact ⟨htext, by simpa using hlast⟩
    have hlast' : before.getLast? ≠ some '\\' := by
      cases before with
      | nil => exact nofun
      | cons x before => rwa [← List.cons_append, List.getLast?_append_of_ne_nil _ (List.cons_ne_nil x before)] at hlast
    obtain ⟨hinsert, hold⟩ := ih htext hlast'
    have hstep' := step_insert hd hstep hplace text
    rw [List.cons_append, List.append_assoc, scanFrom_of_step hstep', hinsert]
    rw [List.cons_append, List.append_assoc, scanFrom_of_step hstep, hold]
    exact ⟨rfl, rfl⟩

end

/-! ## Comments -/

def comment (d : Delimiters) (text : List Char) : List Char :=
  d.start :: '!' :: (text ++ ['!', d.stop])

/-- A comment is passed over. -/
theorem step_comment (hd : d.admissible = true) (h : st.InText) {text : List Char} (htext : ¬ ['!', d.stop] <:+: text)
    (rest : List Char) :
    step d st d.start ('!' :: (text ++ '!' :: d.stop :: rest)) = .ok (st.skip (byteLength (comment d text)), rest) := by
  have hsign : d.stop ≠ '!' := (ne_stop_of_isReserved hd (by decide)).symm
  have hbytes : d.start.utf8Size + 1 + byteLength (text ++ ['!', d.stop]) = byteLength (comment d text) :=
    Nat.add_assoc ..
  rw [step_of_inText h, stepText_comment_eq_ok_iff hd]
  exact ⟨_, skipComment_append hsign htext rest, by rw [hbytes]⟩

/-- **A comment in literal text changes nothing.** The place is anywhere in literal text, but not directly behind a
backslash that is literal text, and the text of the comment does not have the closing sign in it. The tokens are the
same as without the comment, and so is the tree, up to places; where there are none without it there are none with
it. -/
theorem tree?_comment (hd : d.admissible = true) {before after : List Char} (hplace : TextPlace d before after)
    (hlast : before.getLast? ≠ some '\\') {text : List Char} (htext : ¬ ['!', d.stop] <:+: text) :
    tokens? d (before ++ (comment d text ++ after)) = tokens? d (before ++ after) ∧
      tree? d (before ++ (comment d text ++ after)) = tree? d (before ++ after) := by
  have htokens : tokens? d (before ++ (comment d text ++ after)) = tokens? d (before ++ after) := by
    obtain ⟨st, hreaches, hst⟩ := hplace
    obtain ⟨hnew, hold⟩ := hreaches.scanFrom_eq hd hst hlast ('!' :: (text ++ '!' :: d.stop :: after))
    have hcomment : comment d text ++ after = d.start :: '!' :: (text ++ '!' :: d.stop :: after) := by simp [comment]
    have hstop : d.stop ≠ '\\' := (ne_stop_of_isReserved hd (by decide)).symm
    have halike : (st.skip (byteLength (comment d text))).Alike st := ⟨rfl, rfl, rfl⟩
    rw [tokens?, tokens?, scan, scan, hcomment, hnew, hold, scanFrom_of_step (step_comment hd hst htext after)]
    exact (scanFrom_alike hstop halike after).toOption_map fun _ _ h => h
  exact ⟨htokens, tree?_congr htokens⟩

/-- A comment with signs of all kinds in it, in a body behind its header and a character. -/
theorem tree?_comment_body :
    let before := ['<', 'x', 's', ':', '\x7b', 'x', '|', ' ', 'a']
    let after := ['<', 'x', '>', '\x7d', '>']
    let text := ['\x7d', ' ', '<', 'x', '>', '"', '\\', '!']
    ({} : Delimiters).admissible = true ∧ TextPlace {} before after ∧ before.getLast? ≠ some '\\' ∧
      ¬ ['!', '>'] <:+: text ∧
      tokens? {} (before ++ after) = some [.startDelimiter, .word "xs", .colon, .braceOpen, .word "x", .pipe, .text "a",
        .startDelimiter, .word "x", .stopDelimiter, .braceClose, .stopDelimiter] ∧
      tokens? {} (before ++ (comment {} text ++ after)) = tokens? {} (before ++ after) ∧
      tree? {} (before ++ (comment {} text ++ after)) = tree? {} (before ++ after) := by
  intro before after text
  let opened : ScanState := { openings := [.expression 0], pos := 1, emitted := [⟨.startDelimiter, ⟨0, 1⟩⟩] }
  let named := opened.emit (.word "xs") 2
  let mapped := named.emit .colon 1
  let header : List Lexeme := [⟨.pipe, ⟨6, 7⟩⟩, ⟨.word "x", ⟨5, 6⟩⟩]
  let body : ScanState :=
    { openings := [.braces 4, .expression 0], literalStart := 8, pos := 8
      emitted := header ++ (mapped.emit .braceOpen 1).emitted }
  have h₁ : step {} {} '<' ([] ++ (['x', 's', ':', '\x7b', 'x', '|', ' ', 'a'] ++ after)) =
      .ok (opened, ['x', 's', ':', '\x7b', 'x', '|', ' ', 'a'] ++ after) := by
    decide +kernel
  have h₂ : step {} opened 'x' (['s'] ++ ([':', '\x7b', 'x', '|', ' ', 'a'] ++ after)) =
      .ok (named, [':', '\x7b', 'x', '|', ' ', 'a'] ++ after) := by
    decide +kernel
  have h₃ : step {} named ':' ([] ++ (['\x7b', 'x', '|', ' ', 'a'] ++ after)) =
      .ok (mapped, ['\x7b', 'x', '|', ' ', 'a'] ++ after) := by
    decide +kernel
  have h₄ : step {} mapped '\x7b' (['x', '|', ' '] ++ (['a'] ++ after)) = .ok (body, ['a'] ++ after) := by
    decide +kernel
  have h₅ : step {} body 'a' ([] ++ ([] ++ after)) = .ok (body.keep 'a' 1, [] ++ after) := by
    decide +kernel
  have hplace : TextPlace {} before after :=
    ⟨body.keep 'a' 1, .behind h₁ (.behind h₂ (.behind h₃ (.behind h₄ (.behind h₅ (.here _ after))))), nofun⟩
  have hlast : before.getLast? ≠ some '\\' := by decide
  have htext : ¬ ['!', '>'] <:+: text := by decide
  exact ⟨by decide, hplace, hlast, htext, by decide +kernel, tree?_comment (by decide) hplace hlast htext⟩

end Stencil.Template
