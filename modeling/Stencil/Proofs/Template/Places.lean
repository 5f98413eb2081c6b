import Stencil.Proofs.Template.ErrorSpans

/-!
# Scanning and parsing do not look at places

The scanner counts bytes only to write down where its tokens stand. From states that differ in their offsets at most
(`ScanState.Alike`) it finds the same tokens in a text or fails both times (`scanFrom_alike`), and the tree that the
parser reads is, places aside, known from the tokens (`tree?_congr`).
-/

namespace Stencil.Template

variable {d : Delimiters}

/-! ## The parameters of a body -/

/-- The text is words with commas between them and a bar behind the last one, with ASCII blanks around the words, and
these are its tokens. -/
inductive Header : List Char → List Token → Prop where
  | last {blanks name gap : List Char} : (∀ c ∈ blanks, isAsciiBlank c = true) → isWord name = true →
    (∀ c ∈ gap, isAsciiBlank c = true) →
    Header (blanks ++ (name ++ (gap ++ ['|']))) [.word (String.ofList name), .pipe]
  | cons {blanks name gap text : List Char} {ts : List Token} : (∀ c ∈ blanks, isAsciiBlank c = true) →
    isWord name = true → (∀ c ∈ gap, isAsciiBlank c = true) → Header text ts →
    Header (blanks ++ (name ++ (gap ++ ',' :: text))) (.word (String.ofList name) :: .comma :: ts)

theorem isWord_of_splitWord? {cs name rest : List Char} (h : splitWord? cs = some (name, rest)) :
    isWord name = true := by
  cases cs with
  | nil => cases h
  | cons c cs =>
    rw [splitWord?] at h
    split at h
    · next hc =>
      cases h
      rw [isWord, hc, Bool.true_and, List.all_eq_true]
      exact fun _ => List.mem_takeWhile_imp
    · cases h

/-- The first word of a header ends at the blanks behind it or at the mark. -/
theorem boundary_gap {gap : List Char} (hgap : ∀ c ∈ gap, isAsciiBlank c = true) {mark : Char}
    (hmark : isWordPart mark = false) (rest : List Char) : Boundary (gap ++ mark :: rest) := by
  cases gap with
  | nil => exact boundary_cons hmark rest
  | cons c gap =>
    have hc := hgap c List.mem_cons_self
    simp only [isAsciiBlank, Bool.or_eq_true, beq_iff_eq] at hc
    refine boundary_cons ?_ _
    rcases hc with (((rfl | rfl) | rfl) | rfl) | rfl <;> rfl

section
variable {blanks name gap : List Char} (hblanks : ∀ c ∈ blanks, isAsciiBlank c = true) (hname : isWord name = true)
  (hgap : ∀ c ∈ gap, isAsciiBlank c = true)
include hblanks hname hgap

theorem splitWord?_header {mark : Char} (hmark : isWordPart mark = false) (rest : List Char) :
    (blanks ++ (name ++ (gap ++ mark :: rest))).takeWhile isAsciiBlank = blanks ∧
      splitWord? ((blanks ++ (name ++ (gap ++ mark :: rest))).dropWhile isAsciiBlank) =
        some (name, gap ++ mark :: rest) := by
  have hstart : ∀ c ∈ (name ++ (gap ++ mark :: rest)).head?, isAsciiBlank c = false := by
    intro c hc
    cases name with
    | nil => cases hname
    | cons x name =>
      cases hc
      rw [isWord, Bool.and_eq_true] at hname
      have hblank := (beginsToken_of_isWordPart (isWordPart_of_isWordStart hname.1)).blank
      rw [← Bool.not_eq_true] at hblank ⊢
      exact fun h => hblank (isBlank_of_isAsciiBlank h)
  refine ⟨(span_append hblanks hstart).1, ?_⟩
  rw [← String.toList_ofList (l := name)] at hname
  have hsplit := splitWord?_word hname (boundary_gap hgap hmark rest)
  rwa [List.dropWhile_append_of_pos hblanks, ← String.toList_ofList (l := name)]

/-- What is read of a header's first word and the mark behind it is known from their text. -/
theorem header?_eq {mark : Char} (hmark : isWordPart mark = false) (hblank : isAsciiBlank mark = false) (pos : Nat) :
    ∃ word p, word.token = .word (String.ofList name) ∧ ∀ rest,
      header? pos (blanks ++ (name ++ (gap ++ mark :: rest))) =
        if mark = ',' then
          (header? (p + 1) rest).map fun found => (word :: ⟨.comma, ⟨p, p + 1⟩⟩ :: found.1, found.2)
        else if mark = '|' then
          some ([word, ⟨.pipe, ⟨p, p + 1⟩⟩], p + 1 + (rest.takeWhile isInlineBlank).length,
            rest.dropWhile isInlineBlank)
        else none := by
  refine ⟨⟨.word (String.ofList name), ⟨pos + blanks.length, pos + blanks.length + name.length⟩⟩,
    pos + blanks.length + name.length + gap.length, rfl, fun rest => ?_⟩
  obtain ⟨htake, hsplit⟩ := splitWord?_header hblanks hname hgap hmark rest
  have hend : ∀ c ∈ (mark :: rest).head?, isAsciiBlank c = false := by
    rintro _ ⟨⟩
    exact hblank
  obtain ⟨htake', hdrop'⟩ := span_append hgap hend
  rw [header?]
  split
  · next hw => rw [hsplit] at hw; cases hw
  · next hw =>
    rw [hsplit] at hw
    cases hw
    dsimp only
    rw [htake, htake']
    split
    · next heq =>
      rw [hdrop'] at heq
      cases heq
      rfl
    · next heq =>
      rw [hdrop'] at heq
      cases heq
      rfl
    · next hcomma hpipe =>
      rw [if_neg, if_neg]
      · rintro rfl
        exact hpipe rest hdrop'
      · rintro rfl
        exact hcomma rest hdrop'

end

/-- Where a header ends and what its tokens are does not depend on what stands behind it. -/
theorem Header.header? {text : List Char} {ts : List Token} (h : Header text ts) (pos : Nat) :
    ∃ located p, located.map (·.token) = ts ∧ ∀ rest, Template.header? pos (text ++ rest) =
      some (located, p + (rest.takeWhile isInlineBlank).length, rest.dropWhile isInlineBlank) := by
  induction h generalizing pos with
  | last hblanks hname hgap =>
    obtain ⟨word, p, hword, hread⟩ := header?_eq hblanks hname hgap (by decide : isWordPart '|' = false) (by decide) pos
    refine ⟨[word, ⟨.pipe, ⟨p, p + 1⟩⟩], p + 1, by simp [hword], fun rest => ?_⟩
    simpa using hread rest
  | @cons _ _ _ text ts hblanks hname hgap _ ih =>
    obtain ⟨word, p, hword, hread⟩ := header?_eq hblanks hname hgap (by decide : isWordPart ',' = false) (by decide) pos
    obtain ⟨located, p', hlocated, hrest⟩ := ih (p + 1)
    refine ⟨word :: ⟨.comma, ⟨p, p + 1⟩⟩ :: located, p', by simp [hword, hlocated], fun rest => ?_⟩
    simpa [hrest] using hread (text ++ rest)

/-- The blanks, the word and the blanks in front of a mark are all that stands there. -/
theorem eq_append_of_splitWord? {cs name r rest : List Char} {mark : Char}
    (hword : splitWord? (cs.dropWhile isAsciiBlank) = some (name, r))
    (hrest : r.dropWhile isAsciiBlank = mark :: rest) :
    cs = cs.takeWhile isAsciiBlank ++ (name ++ (r.takeWhile isAsciiBlank ++ mark :: rest)) := by
  rw [← hrest, List.takeWhile_append_dropWhile, ← (splitWord?_eq_some hword).1, List.takeWhile_append_dropWhile]

/-- What is read as a header is one, and it and the spaces and tabs behind it are passed over. -/
theorem header_of_header? {pos p : Nat} {cs after : List Char} {located : List Lexeme}
    (h : header? pos cs = some (located, p, after)) :
    ∃ text rest, Header text (located.map (·.token)) ∧ cs = text ++ rest ∧ after = rest.dropWhile isInlineBlank ∧
      p = pos + byteLength text + (rest.takeWhile isInlineBlank).length := by
  have hblanks : ∀ cs : List Char, ∀ c ∈ cs.takeWhile isAsciiBlank, isAsciiBlank c = true :=
    fun _ _ => List.mem_takeWhile_imp
  have hcomma : ','.utf8Size = 1 := rfl
  have hpipe : '|'.utf8Size = 1 := rfl
  fun_induction header? pos cs generalizing located with
  | case1 => cases h
  | case2 pos cs name r hword start stop mark word rest hrest =>
    rename_i ih
    obtain ⟨⟨located', p', after'⟩, hread, heq⟩ := Option.map_eq_some_iff.1 h
    cases heq
    obtain ⟨text, rest', htext, rfl, rfl, rfl⟩ := ih hread
    refine ⟨_, rest', .cons (hblanks cs) (isWord_of_splitWord? hword) (hblanks r) htext, ?_, rfl, ?_⟩
    · refine (eq_append_of_splitWord? hword hrest).trans ?_
      simp
    · simp only [byteLength_append, byteLength_cons, byteLength_takeWhile_isAsciiBlank, (splitWord?_eq_some hword).2.2,
        hcomma, mark, stop, start]
      omega
  | case3 pos cs name r hword start stop mark word rest =>
    rename_i hrest
    cases h
    refine ⟨_, rest, .last (hblanks cs) (isWord_of_splitWord? hword) (hblanks r), ?_, rfl, ?_⟩
    · refine (eq_append_of_splitWord? hword hrest).trans ?_
      simp
    · simp only [byteLength_append, byteLength_cons, byteLength_nil, byteLength_takeWhile_isAsciiBlank,
        (splitWord?_eq_some hword).2.2, hpipe, mark, stop, start]
      omega
  | case4 => cases h

/-- A text has the same header wherever it stands. -/
theorem header?_alike {pos p : Nat} {cs after : List Char} {located : List Lexeme}
    (h : header? pos cs = some (located, p, after)) (pos' : Nat) :
    ∃ located' p', header? pos' cs = some (located', p', after) ∧ SameTokens located located' := by
  obtain ⟨text, rest, htext, rfl, rfl, -⟩ := header_of_header? h
  obtain ⟨located', p', hlocated, hread⟩ := htext.header? pos'
  exact ⟨located', _, hread rest, hlocated.symm⟩

/-! ## States -/

def Opening.kind : Opening → Opening
  | .expression _ => .expression 0
  | .braces _ => .braces 0

namespace ScanState

/-- The states differ at most in their offsets. -/
structure Alike (st st' : ScanState) : Prop where
  openings : st.openings.map Opening.kind = st'.openings.map Opening.kind
  literal : st.literal = st'.literal
  emitted : SameTokens st.emitted st'.emitted

namespace Alike

variable {st st' : ScanState}

/-- The same kind of thing is innermost. -/
theorem innermost (h : st.Alike st') :
    (st.openings = [] ∧ st'.openings = []) ∨
    (∃ n os n' os', st.openings = .expression n :: os ∧ st'.openings = .expression n' :: os') ∨
      ∃ n os n' os', st.openings = .braces n :: os ∧ st'.openings = .braces n' :: os' := by
  have hopenings := h.openings
  match hos : st.openings, hos' : st'.openings with
  | [], [] => exact .inl ⟨rfl, rfl⟩
  | .expression n :: os, .expression n' :: os' => exact .inr (.inl ⟨n, os, n', os', rfl, rfl⟩)
  | .braces n :: os, .braces n' :: os' => exact .inr (.inr ⟨n, os, n', os', rfl, rfl⟩)
  | [], _ :: _ => simp [hos, hos'] at hopenings
  | _ :: _, [] => simp [hos, hos'] at hopenings
  | .expression _ :: _, .braces _ :: _ => simp [hos, hos', Opening.kind] at hopenings
  | .braces _ :: _, .expression _ :: _ => simp [hos, hos', Opening.kind] at hopenings

theorem inBraces (h : st.Alike st') : st.inBraces = st'.inBraces := by
  rw [ScanState.inBraces, ScanState.inBraces]
  rcases h.innermost with ⟨hos, hos'⟩ | ⟨_, _, _, _, hos, hos'⟩ | ⟨_, _, _, _, hos, hos'⟩ <;> rw [hos, hos']

theorem opened (h : st.Alike st') {o o' : Opening} (ho : o.kind = o'.kind) :
    (o :: st.openings).map Opening.kind = (o' :: st'.openings).map Opening.kind :=
  congrArg₂ List.cons ho h.openings

theorem emit (h : st.Alike st') (t : Token) (bytes bytes' : Nat) : (st.emit t bytes).Alike (st'.emit t bytes') :=
  ⟨h.openings, h.literal, congrArg (t :: ·) h.emitted⟩

theorem flush (h : st.Alike st') : st.flush.Alike st'.flush := by
  rw [ScanState.flush, ScanState.flush, h.literal]
  split
  · exact h
  · exact ⟨h.openings, rfl, congrArg (_ :: ·) h.emitted⟩

theorem close (h : st.Alike st') : st.close.Alike st'.close := by
  refine ⟨?_, h.literal, h.emitted⟩
  rw [ScanState.close, ScanState.close, List.map_tail, List.map_tail, h.openings]

end Alike

end ScanState

/-- The same escapes are read wherever a tag stands. -/
theorem escapeTag_alike {stop : Char} (hstop : stop ≠ '\\') (opened opened' pos pos' : Nat) (cs : List Char) :
    Concur (fun found found' => found.1 = found'.1 ∧ found.2.2 = found'.2.2) (escapeTag stop opened pos [] cs)
      (escapeTag stop opened' pos' [] cs) := by
  have hread : ∀ opened opened' pos pos' : Nat, ∀ found, escapeTag stop opened pos [] cs = .ok found →
      ∃ found', escapeTag stop opened' pos' [] cs = .ok found' ∧ found.1 = found'.1 ∧ found.2.2 = found'.2.2 := by
    rintro opened opened' pos pos' ⟨out, p, rest⟩ h
    obtain ⟨tag, chars, htag, hne, hunits, hout, -⟩ := (escapeTag_eq_ok_iff hstop).1 h
    exact ⟨_, (escapeTag_eq_ok_iff hstop).2 ⟨tag, chars, htag, hne, hunits, hout, rfl⟩, rfl, rfl⟩
  refine .of_ok (hread opened opened' pos pos') fun found' h' => ?_
  obtain ⟨found, h, -⟩ := hread opened' opened pos' pos found' h'
  exact ⟨found, h⟩

/-- Both steps fail, or they leave the same text and states that differ in their offsets at most. -/
abbrev StepAlike : Except SyntaxError (ScanState × List Char) → Except SyntaxError (ScanState × List Char) → Prop :=
  Concur fun left left' => left.1.Alike left'.1 ∧ left.2 = left'.2

section
variable {st st' : ScanState} (h : st.Alike st')
include h

theorem stepText_alike (hstop : d.stop ≠ '\\') (c : Char) (cs : List Char) :
    StepAlike (stepText d st c cs) (stepText d st' c cs) := by
  have hkeep : ∀ (x : Char) (bytes bytes' : Nat) (rest : List Char),
      StepAlike (.ok (st.keep x bytes, rest)) (.ok (st'.keep x bytes', rest)) :=
    fun x _ _ _ => .ok ⟨⟨h.openings, congrArg (x :: ·) h.literal, h.emitted⟩, rfl⟩
  unfold stepText
  rw [h.inBraces]
  split
  · cases cs with
    | nil => exact hkeep _ _ _ _
    | cons next rest =>
      dsimp only
      split
      · exact hkeep _ _ _ _
      · exact hkeep _ _ _ _
  · split
    · exact .ok ⟨(h.flush.emit .braceClose 1 1).close, rfl⟩
    · split
      · split
        · next rest =>
          cases skipComment d.stop rest with
          | none => exact .error _ _
          | some found => exact .ok ⟨⟨h.openings, h.literal, h.emitted⟩, rfl⟩
        · next rest =>
          have htag := escapeTag_alike hstop st.pos st'.pos (st.pos + c.utf8Size) (st'.pos + c.utf8Size) ('\\' :: rest)
          generalize escapeTag d.stop st.pos (st.pos + c.utf8Size) [] ('\\' :: rest) = tag at htag ⊢
          generalize escapeTag d.stop st'.pos (st'.pos + c.utf8Size) [] ('\\' :: rest) = tag' at htag ⊢
          cases htag with
          | ok hfound => exact .ok ⟨⟨h.openings, congrArg₂ (· ++ ·) hfound.1 h.literal, h.emitted⟩, hfound.2⟩
          | error e e' => exact .error e e'
        · have hemit := h.flush.emit .startDelimiter c.utf8Size c.utf8Size
          exact .ok ⟨⟨hemit.opened rfl, hemit.literal, hemit.emitted⟩, rfl⟩
      · exact hkeep _ _ _ _

theorem stepExpression_alike (c : Char) (cs : List Char) :
    StepAlike (stepExpression d st c cs) (stepExpression d st' c cs) := by
  unfold stepExpression
  split
  · exact .ok ⟨⟨h.openings, h.literal, h.emitted⟩, rfl⟩
  · split
    · exact .ok ⟨(h.emit .stopDelimiter _ _).close, rfl⟩
    · split
      · have hemit := h.emit .braceOpen 1 1
        have hopened : (Opening.braces st.pos).kind = (Opening.braces st'.pos).kind := rfl
        dsimp only
        cases hheader : header? (st.emit .braceOpen 1).pos cs with
        | some found =>
          obtain ⟨located, p, after⟩ := found
          obtain ⟨located', p', hheader', hsame⟩ := header?_alike hheader (st'.emit .braceOpen 1).pos
          rw [hheader']
          refine .ok ⟨⟨h.opened hopened, h.literal, ?_⟩, rfl⟩
          rw [SameTokens, List.map_append, List.map_append, List.map_reverse, List.map_reverse]
          exact congrArg₂ (· ++ ·) (congrArg List.reverse hsame) hemit.emitted
        | none =>
          cases hheader' : header? (st'.emit .braceOpen 1).pos cs with
          | some found =>
            obtain ⟨_, _, hheader', -⟩ := header?_alike hheader' (st.emit .braceOpen 1).pos
            rw [hheader] at hheader'
            cases hheader'
          | none => exact .ok ⟨⟨h.opened hopened, h.literal, hemit.emitted⟩, rfl⟩
      · split
        · exact .ok ⟨h.emit _ _ _, rfl⟩
        · exact .error _ _

theorem step_alike (hstop : d.stop ≠ '\\') (c : Char) (cs : List Char) :
    StepAlike (step d st c cs) (step d st' c cs) := by
  rw [step, step]
  rcases h.innermost with ⟨hos, hos'⟩ | ⟨_, _, _, _, hos, hos'⟩ | ⟨_, _, _, _, hos, hos'⟩
  · rw [hos, hos']
    exact stepText_alike h hstop c cs
  · rw [hos, hos']
    exact stepExpression_alike h c cs
  · rw [hos, hos']
    exact stepText_alike h hstop c cs

theorem finish_alike : Concur SameTokens (finish d st) (finish d st') := by
  rw [finish, finish]
  rcases h.innermost with ⟨hos, hos'⟩ | ⟨_, _, _, _, hos, hos'⟩ | ⟨_, _, _, _, hos, hos'⟩
  · rw [hos, hos']
    refine .ok ?_
    rw [SameTokens, List.map_reverse, List.map_reverse]
    exact congrArg List.reverse h.flush.emitted
  · rw [hos, hos']
    exact .error _ _
  · rw [hos, hos']
    exact .error _ _

end

theorem scanFrom_cons (d : Delimiters) (st : ScanState) (c : Char) (cs : List Char) :
    scanFrom d st (c :: cs) = step d st c cs >>= fun left => scanFrom d left.1 left.2 := by
  rw [scanFrom]
  split <;> next h => rw [h]; rfl

/-- In a text the same tokens are found from states that differ in their offsets at most. -/
theorem scanFrom_alike (hstop : d.stop ≠ '\\') {st st' : ScanState} (h : st.Alike st') (cs : List Char) :
    Concur SameTokens (scanFrom d st cs) (scanFrom d st' cs) := by
  fun_induction scanFrom d st cs generalizing st' with
  | case1 st =>
    rw [scanFrom]
    exact finish_alike h
  | case2 st c cs st₁ rest hstep ih =>
    have hleft := step_alike h hstop c cs
    rw [scanFrom_cons]
    rw [hstep] at hleft
    generalize step d st' c cs = left' at hleft ⊢
    cases hleft with
    | @ok _ left' hleft =>
      obtain ⟨st₁', rest'⟩ := left'
      obtain ⟨hst, rfl⟩ := hleft
      exact ih hst
  | case3 st c cs e hstep =>
    have hleft := step_alike h hstop c cs
    rw [scanFrom_cons]
    rw [hstep] at hleft
    generalize step d st' c cs = left' at hleft ⊢
    cases hleft with
    | error e e' => exact .error e e'

/-! ## Trees -/

/-- The tokens of a source, without their places; none where it cannot be scanned. -/
def tokens? (d : Delimiters) (source : List Char) : Option (List Token) :=
  (scan d source).toOption.map (List.map (·.token))

/-- The template that a source is parsed as, without the places of its parts; none where it is malformed. -/
def tree? (d : Delimiters) (source : List Char) : Option (List (Node Unit)) :=
  (parse d source).toOption.map Node.eraseAll

/-- From the same tokens at other places the same tree is read, places aside. -/
theorem parseTokens_replace {eof : Span} {ts ts' : List Lexeme} (h : SameTokens ts ts') {found : List (Node Span)}
    (hread : parseTokens eof ts = .ok found) (eof' : Span) :
    ∃ found', parseTokens eof' ts' = .ok found' ∧ Node.eraseAll found = Node.eraseAll found' := by
  obtain ⟨⟨ns, rest, hle⟩, hnodes, hend⟩ := bind_eq_ok.1 hread
  obtain ⟨us, htokens, hus⟩ := recognizes_nodes eof ts _ hnodes
  cases rest with
  | cons t rest => cases hend
  | nil =>
    cases hend
    obtain ⟨⟨ns', rest', hle'⟩, hnodes', hsame, hrest'⟩ := reads_nodes eof' hus .source ts' (h.symm.trans htokens)
    obtain rfl := List.map_eq_nil_iff.1 hrest'
    exact ⟨ns', by rw [parseTokens, hnodes']; rfl, hsame.symm⟩

theorem parseTokens_alike {eof eof' : Span} {ts ts' : List Lexeme} (h : SameTokens ts ts') :
    Concur (fun found found' => Node.eraseAll found = Node.eraseAll found') (parseTokens eof ts)
      (parseTokens eof' ts') := by
  refine .of_ok (fun found hread => parseTokens_replace h hread eof') fun found' hread' => ?_
  obtain ⟨found, hread, -⟩ := parseTokens_replace h.symm hread' eof
  exact ⟨found, hread⟩

/-- Sources with the same tokens have the same tree. -/
theorem tree?_congr {source source' : List Char} (h : tokens? d source = tokens? d source') :
    tree? d source = tree? d source' := by
  have hscan : Concur SameTokens (scan d source) (scan d source') := .of_toOption_map h
  exact Concur.toOption_map (hscan.bind fun _ _ htokens => parseTokens_alike htokens) fun _ _ herase => herase

end Stencil.Template
