import Stencil.Proofs.Template.Print
import Stencil.Proofs.Text.Blank

/-!
# Scanning the tokens of an expression

Tokens that are printed one after the other are scanned as they were (`scans_sources`), if no word and no
number is followed by a character that would prolong it (`Scannable`). A state of the scanner counts for its
tokens, the pending literal text included (`ScanState.tokens`).
-/

namespace Stencil.Template

/-! ## Characters -/

/-- What is known of a character with which a token begins. -/
structure BeginsToken (c : Char) : Prop where
  blank : isBlank c = false
  reserved : isReserved c = true
  brace : c ≠ '\x7b'
  comment : c ≠ '!'
  escape : c ≠ '\\'

theorem beginsToken_of_isWordPart {c : Char} (h : isWordPart c = true) : BeginsToken c := by
  have hne : ∀ other : Char, isWordPart other = false → c ≠ other := by
    rintro other ho rfl
    rw [h] at ho
    cases ho
  rcases Bool.or_eq_true_iff.1 h with ha | hu
  · refine ⟨isBlank_of_isWordPart h, ?_, hne _ rfl, hne _ rfl, hne _ rfl⟩
    simp [isReserved, ha]
  · rw [beq_iff_eq.1 hu]
    exact ⟨by decide, by decide, by decide, by decide, by decide⟩

theorem beginsToken_of_punctuation? {c : Char} {t : Token} (h : punctuation? c = some t) : BeginsToken c := by
  unfold punctuation? at h
  split at h
  case h_10 => cases h
  all_goals exact ⟨by decide, by decide, by decide, by decide, by decide⟩

theorem punctuation?_eq_none {c : Char} (h : isWordPart c = true) : punctuation? c = none := by
  unfold punctuation?
  split
  case h_10 => rfl
  all_goals cases h

theorem Delimiters.isReserved_eq_false {d : Delimiters} (hd : d.admissible = true) :
    isReserved d.start = false ∧ isReserved d.stop = false := by
  simpa [admissible] using hd

theorem isBlank_of_not_isReserved {c : Char} (h : isReserved c = false) : isBlank c = false := by
  rw [isReserved, Bool.or_eq_false_iff, Bool.or_eq_false_iff] at h
  exact h.1.1

theorem isWordPart_of_not_isReserved {c : Char} (h : isReserved c = false) : isWordPart c = false := by
  rw [← Bool.not_eq_true]
  intro hpart
  rw [(beginsToken_of_isWordPart hpart).reserved] at h
  cases h

section
variable {d : Delimiters} (hd : d.admissible = true) {c : Char} (hc : isReserved c = true)
include hd hc

theorem ne_start_of_isReserved : c ≠ d.start := by
  rintro rfl
  rw [(Delimiters.isReserved_eq_false hd).1] at hc
  cases hc

theorem ne_stop_of_isReserved : c ≠ d.stop := by
  rintro rfl
  rw [(Delimiters.isReserved_eq_false hd).2] at hc
  cases hc

end

/-! ## Single tokens -/

def Token.isOpen : Token → Bool
  | .word _ => true
  | .int _ => true
  | _ => false

/-- A token that can stand in an expression. -/
def Token.Printable : Token → Prop
  | .word name => isName name = true
  | .int n => n < wordLimit
  | .str _ | .dot | .colon | .semicolon | .comma | .equals | .pipe | .atSign | .parenOpen | .parenClose => True
  | .text _ | .startDelimiter | .stopDelimiter | .braceOpen | .braceClose => False

/-- The ways in which a token begins with the character and takes `more`, where `rest` stands behind it. Words and
numbers take all characters that prolong them. -/
inductive TakesToken (c : Char) : List Char → Token → List Char → Prop where
  | punctuation {t : Token} {rest : List Char} : punctuation? c = some t → TakesToken c [] t rest
  | word {more rest : List Char} : isWordStart c = true → (∀ x ∈ more, isWordPart x = true) →
    (∀ x ∈ rest.head?, isWordPart x = false) → TakesToken c more (.word (String.ofList (c :: more))) rest
  | percent {more rest : List Char} : c = '%' → more ≠ [] → (∀ x ∈ more, x.isDigit = true) →
    (∀ x ∈ rest.head?, x.isDigit = false) → TakesToken c more (.word (String.ofList (c :: more))) rest
  | int {more rest : List Char} : c.isDigit = true → (∀ x ∈ more, x.isDigit = true) →
    (∀ x ∈ rest.head?, x.isDigit = false) → decimalValue (c :: more) < wordLimit →
    TakesToken c more (.int (decimalValue (c :: more))) rest
  | str {body rest : List Char} : c = '"' → scanLiteral (body ++ '"' :: rest) = (body, some rest) →
    TakesToken c (body ++ ['"']) (.str (String.ofList (unescape body))) rest

section
variable {c : Char} {cs more rest : List Char} {t : Token}

theorem takesToken_of_expressionToken? (h : expressionToken? c cs = some (t, more, rest)) :
    cs = more ++ rest ∧ TakesToken c more t rest := by
  have hcut : ∀ p : Char → Bool, cs = cs.takeWhile p ++ cs.dropWhile p :=
    fun _ => List.takeWhile_append_dropWhile.symm
  unfold expressionToken? at h
  split at h
  · next hc =>
    cases h
    exact ⟨rfl, .punctuation hc⟩
  · split at h
    · next hc =>
      cases h
      exact ⟨hcut _, .word hc (fun _ => List.mem_takeWhile_imp) fun _ => not_of_mem_head?_dropWhile⟩
    · split at h
      · next hc =>
        dsimp only at h
        split at h
        · cases h
        · next hne =>
          cases h
          exact ⟨hcut _, .percent (beq_iff_eq.1 hc) (mt List.isEmpty_iff.2 hne) (fun _ => List.mem_takeWhile_imp)
            fun _ => not_of_mem_head?_dropWhile⟩
      · split at h
        · next hc =>
          dsimp only at h
          split at h
          · next hlt =>
            cases h
            exact ⟨hcut _, .int hc (fun _ => List.mem_takeWhile_imp) (fun _ => not_of_mem_head?_dropWhile) hlt⟩
          · cases h
        · split at h
          · next hc =>
            split at h
            · next body rest' hbody =>
              cases h
              have happend := eq_append_of_scanLiteral hbody
              rw [happend] at hbody
              exact ⟨happend.trans (List.append_cons ..), .str (beq_iff_eq.1 hc) hbody⟩
            · cases h
          · cases h

theorem TakesToken.expressionToken? (h : TakesToken c more t rest) :
    expressionToken? c (more ++ rest) = some (t, more, rest) := by
  rw [Template.expressionToken?]
  cases h with
  | punctuation hc => rw [hc, List.nil_append]
  | word hc hmore hrest =>
    obtain ⟨htake, hdrop⟩ := span_append hmore hrest
    rw [punctuation?_eq_none (isWordPart_of_isWordStart hc)]
    simp only [hc, if_true, htake, hdrop]
  | percent hc hne hmore hrest =>
    obtain ⟨htake, hdrop⟩ := span_append hmore hrest
    have hpunctuation : punctuation? '%' = none := rfl
    have hstart : isWordStart '%' = false := rfl
    subst hc
    rw [hpunctuation]
    simp [hstart, htake, hdrop, hne]
  | int hc hmore hrest hlt =>
    obtain ⟨htake, hdrop⟩ := span_append hmore hrest
    have hpercent : c ≠ '%' := by
      rintro rfl
      cases hc
    rw [punctuation?_eq_none (isWordPart_of_isDigit hc)]
    simp [isWordStart_of_isDigit hc, hpercent, hc, htake, hdrop, hlt]
  | str hc hbody =>
    have hpunctuation : punctuation? '"' = none := rfl
    have hstart : isWordStart '"' = false := rfl
    have hdigit : '"'.isDigit = false := rfl
    subst hc
    rw [hpunctuation, List.append_assoc, List.singleton_append]
    simp [hstart, hdigit, hbody]

/-- What is taken as a token depends on no more than the next character behind it. -/
theorem TakesToken.replace (h : TakesToken c more t rest) {rest' : List Char} (hhead : rest'.head? = rest.head?) :
    TakesToken c more t rest' := by
  cases h with
  | punctuation hc => exact .punctuation hc
  | word hc hmore hrest => exact .word hc hmore (hhead ▸ hrest)
  | percent hc hne hmore hrest => exact .percent hc hne hmore (hhead ▸ hrest)
  | int hc hmore hrest hlt => exact .int hc hmore (hhead ▸ hrest) hlt
  | str hc hbody => exact .str hc (scanLiteral_replace hbody rest')

theorem TakesToken.beginsToken (h : TakesToken c more t rest) : BeginsToken c := by
  cases h with
  | punctuation hc => exact beginsToken_of_punctuation? hc
  | word hc => exact beginsToken_of_isWordPart (isWordPart_of_isWordStart hc)
  | percent hc =>
    subst hc
    exact ⟨by decide, by decide, by decide, by decide, by decide⟩
  | int hc => exact beginsToken_of_isWordPart (isWordPart_of_isDigit hc)
  | str hc =>
    subst hc
    exact ⟨by decide, by decide, by decide, by decide, by decide⟩

/-- A step in an expression takes a token where it looks at no blank, no stop delimiter and no opening brace. -/
theorem stepExpression_token_eq_ok_iff {d : Delimiters} {st st' : ScanState} (hblank : isBlank c = false)
    (hstop : c ≠ d.stop) (hbrace : c ≠ '\x7b') :
    stepExpression d st c (more ++ rest) = .ok (st', rest) ↔
      ∃ t, TakesToken c more t rest ∧ st' = st.emit t (c.utf8Size + byteLength more) := by
  simp only [stepExpression, hblank, beq_eq_false_iff_ne.2 hstop, beq_eq_false_iff_ne.2 hbrace, Bool.false_eq_true,
    if_false]
  constructor
  · intro h
    split at h
    · next t taken rest' htoken =>
      cases h
      obtain ⟨hmore, htakes⟩ := takesToken_of_expressionToken? htoken
      obtain rfl := List.append_cancel_right hmore
      exact ⟨t, htakes, rfl⟩
    · cases h
  · rintro ⟨t, htakes, rfl⟩
    rw [htakes.expressionToken?]

end

theorem takesToken_word {name : String} (hname : isName name = true) {rest : List Char} (hrest : Boundary rest) :
    ∃ c more, name.toList = c :: more ∧ TakesToken c more (.word name) rest := by
  rcases Bool.or_eq_true_iff.1 hname with hword | hnumber
  · cases hcs : name.toList with
    | nil => rw [hcs] at hword; cases hword
    | cons c more =>
      rw [hcs, isWord, Bool.and_eq_true] at hword
      have htakes := TakesToken.word hword.1 (List.all_eq_true.1 hword.2) hrest
      rw [← hcs, String.ofList_toList] at htakes
      exact ⟨c, more, rfl, htakes⟩
  · split at hnumber
    · next ds hds =>
      rw [Bool.and_eq_true] at hnumber
      have hne : ds ≠ [] := by simpa using hnumber.1
      have htakes := TakesToken.percent rfl hne (List.all_eq_true.1 hnumber.2) hrest.isDigit
      rw [← hds, String.ofList_toList] at htakes
      exact ⟨'%', ds, hds, htakes⟩
    · cases hnumber

theorem takesToken_int {n : Nat} (hn : n < wordLimit) {rest : List Char} (hrest : Boundary rest) :
    ∃ c more, numeral 10 n = c :: more ∧ TakesToken c more (.int n) rest := by
  have hvalue := decimalValue_numeral n
  have hdigits : ∀ c ∈ numeral 10 n, c.isDigit = true := fun c => isDigit_of_mem_numeral
  cases hcs : numeral 10 n with
  | nil => exact absurd hcs (numeral_ne_nil 10 n)
  | cons c more =>
    rw [hcs] at hvalue hdigits
    obtain ⟨hc, hmore⟩ := List.forall_mem_cons.1 hdigits
    have htakes := TakesToken.int hc hmore hrest.isDigit (hvalue.symm ▸ hn)
    rw [hvalue] at htakes
    exact ⟨c, more, rfl, htakes⟩

theorem takesToken_str (s : String) (rest : List Char) :
    TakesToken '"' (literalBody s.toList ++ ['"']) (.str s) rest := by
  have htakes := TakesToken.str rfl (scanLiteral_literalBody s.toList rest)
  rwa [unescape_literalBody, String.ofList_toList] at htakes

/-- The text of a token in an expression is taken as the token. -/
theorem takesToken_source (d : Delimiters) {t : Token} (ht : t.Printable) {rest : List Char}
    (hrest : t.isOpen = true → Boundary rest) : ∃ c more, t.source d = c :: more ∧ TakesToken c more t rest := by
  cases t with
  | word name => exact takesToken_word ht (hrest rfl)
  | int n => exact takesToken_int ht (hrest rfl)
  | str s => exact ⟨'"', literalBody s.toList ++ ['"'], rfl, takesToken_str s rest⟩
  | text s => cases ht
  | startDelimiter => cases ht
  | stopDelimiter => cases ht
  | braceOpen => cases ht
  | braceClose => cases ht
  | _ => exact ⟨_, [], rfl, .punctuation rfl⟩

/-! ## States -/

theorem scanFrom_of_step {d : Delimiters} {st st' : ScanState} {c : Char} {cs rest : List Char}
    (h : step d st c cs = .ok (st', rest)) : scanFrom d st (c :: cs) = scanFrom d st' rest := by
  rw [scanFrom]
  split
  · next h' =>
    rw [h] at h'
    cases h'
    rfl
  · next h' =>
    rw [h] at h'
    cases h'

namespace ScanState

variable (st : ScanState)

/-- The tokens so far, with that of the pending literal text. -/
def tokens : List Token :=
  st.flush.emitted.reverse.map (·.token)

@[simp] theorem literal_flush : st.flush.literal = [] := by
  rw [flush]
  split
  · next h => exact List.isEmpty_iff.1 h
  · rfl

@[simp] theorem openings_flush : st.flush.openings = st.openings := by
  rw [flush]
  split <;> rfl

@[simp] theorem pos_flush : st.flush.pos = st.pos := by
  rw [flush]
  split <;> rfl

variable {st}

theorem tokens_of_literal_eq_nil (h : st.literal = []) : st.tokens = st.emitted.reverse.map (·.token) := by
  rw [tokens, flush, h]
  rfl

theorem tokens_flush : st.flush.tokens = st.tokens :=
  tokens_of_literal_eq_nil (literal_flush st)

theorem tokens_emit (h : st.literal = []) (t : Token) (bytes : Nat) :
    (st.emit t bytes).tokens = st.tokens ++ [t] := by
  have hemit : (st.emit t bytes).literal = [] := h
  rw [tokens_of_literal_eq_nil hemit, tokens_of_literal_eq_nil h]
  simp [emit]

theorem tokens_close (h : st.literal = []) : st.close.tokens = st.tokens := by
  have hclose : st.close.literal = [] := h
  rw [tokens_of_literal_eq_nil hclose, tokens_of_literal_eq_nil h]
  rfl

theorem tokens_openings (st : ScanState) (os : List Opening) : { st with openings := os }.tokens = st.tokens := by
  rw [tokens, tokens, flush, flush]
  dsimp only
  split <;> rfl

/-- Literal text after none is one token. -/
theorem tokens_of_literal {st' : ScanState} (hemitted : st'.emitted = st.emitted) (hst : st.literal = [])
    {text : List Char} (htext : text ≠ []) (hst' : st'.literal = text.reverse) :
    st'.tokens = st.tokens ++ [.text (String.ofList text)] := by
  have hne : st'.literal.isEmpty = false := by simpa [hst'] using htext
  rw [tokens_of_literal_eq_nil hst, tokens, flush, hne, hst', hemitted]
  simp

end ScanState

/-- Scanning the text with `rest` after it adds the tokens, with no literal text pending, and closes what it
opens. -/
def Scans (d : Delimiters) (st : ScanState) (cs rest : List Char) (ts : List Token) : Prop :=
  ∃ st', scanFrom d st (cs ++ rest) = scanFrom d st' rest ∧ st'.openings = st.openings ∧ st'.literal = [] ∧
    st'.tokens = st.tokens ++ ts

namespace Scans

variable {d : Delimiters} {st : ScanState} {cs cs' rest : List Char} {ts ts' : List Token}

theorem nil (h : st.literal = []) : Scans d st [] rest [] :=
  ⟨st, rfl, rfl, h, (List.append_nil _).symm⟩

theorem append (h : Scans d st cs (cs' ++ rest) ts)
    (h' : ∀ st', st'.openings = st.openings → st'.literal = [] → Scans d st' cs' rest ts') :
    Scans d st (cs ++ cs') rest (ts ++ ts') := by
  obtain ⟨st₁, hscan₁, hopen₁, hliteral₁, htokens₁⟩ := h
  obtain ⟨st₂, hscan₂, hopen₂, hliteral₂, htokens₂⟩ := h' st₁ hopen₁ hliteral₁
  refine ⟨st₂, ?_, hopen₂.trans hopen₁, hliteral₂, ?_⟩
  · rw [List.append_assoc, hscan₁, hscan₂]
  · rw [htokens₂, htokens₁, List.append_assoc]

end Scans

/-! ## Tokens in an expression -/

/-- The tokens can stand in an expression, and no word and no number among them is prolonged by what comes
after it. -/
def Scannable (d : Delimiters) : List Token → List Char → Prop
  | [], _ => True
  | t :: ts, rest => t.Printable ∧ (t.isOpen = true → Boundary (sources d ts ++ rest)) ∧ Scannable d ts rest

/-- A token that no longer one begins with may stand before anything. -/
theorem Scannable.cons {d : Delimiters} {t : Token} {ts : List Token} {rest : List Char} (ht : t.Printable)
    (hclosed : t.isOpen = false) (h : Scannable d ts rest) : Scannable d (t :: ts) rest := by
  refine ⟨ht, fun ho => ?_, h⟩
  rw [hclosed] at ho
  cases ho

theorem sources_append (d : Delimiters) (ts ts' : List Token) :
    sources d (ts ++ ts') = sources d ts ++ sources d ts' :=
  List.flatMap_append

theorem Scannable.append {d : Delimiters} {ts ts' : List Token} {rest : List Char}
    (h : Scannable d ts (sources d ts' ++ rest)) (h' : Scannable d ts' rest) :
    Scannable d (ts ++ ts') rest := by
  induction ts with
  | nil => exact h'
  | cons t ts ih =>
    obtain ⟨ht, hopen, hts⟩ := h
    refine ⟨ht, fun ho => ?_, ih hts⟩
    change Boundary (sources d (ts ++ ts') ++ rest)
    rw [sources_append, List.append_assoc]
    exact hopen ho

section
variable {d : Delimiters} (hd : d.admissible = true) {st : ScanState} {offset : Nat} {os : List Opening}
  (hst : st.openings = .expression offset :: os) (hliteral : st.literal = [])
include hd hst hliteral

theorem scans_source {t : Token} (ht : t.Printable) {rest : List Char}
    (hrest : t.isOpen = true → Boundary rest) : Scans d st (t.source d) rest [t] := by
  obtain ⟨c, more, hsource, htakes⟩ := takesToken_source d ht hrest
  obtain ⟨hblank, hreserved, hbrace, -, -⟩ := htakes.beginsToken
  have hstop := ne_stop_of_isReserved hd hreserved
  have hstep : step d st c (more ++ rest) =
      .ok (st.emit t (c.utf8Size + byteLength more), rest) := by
    rw [step, hst]
    exact (stepExpression_token_eq_ok_iff hblank hstop hbrace).2 ⟨t, htakes, rfl⟩
  refine ⟨st.emit t (c.utf8Size + byteLength more), ?_, rfl, hliteral, ScanState.tokens_emit hliteral ..⟩
  rw [hsource, List.cons_append, scanFrom_of_step hstep]

/-- Tokens that are printed one after the other are scanned as they were. -/
theorem scans_sources {ts : List Token} {rest : List Char} (h : Scannable d ts rest) :
    Scans d st (sources d ts) rest ts := by
  induction ts generalizing st with
  | nil => exact .nil hliteral
  | cons t ts ih =>
    obtain ⟨ht, hopen, hts⟩ := h
    have hhead : Scans d st (t.source d) (sources d ts ++ rest) [t] := scans_source hd hst hliteral ht hopen
    refine hhead.append fun st' hst' hliteral' => ?_
    exact ih (hst'.trans hst) hliteral' hts

/-- The stop delimiter closes the expression. -/
theorem scanFrom_stop (rest : List Char) :
    ∃ st', scanFrom d st (d.stop :: rest) = scanFrom d st' rest ∧ st'.openings = os ∧ st'.literal = [] ∧
      st'.tokens = st.tokens ++ [.stopDelimiter] := by
  have hblank := isBlank_of_not_isReserved (Delimiters.isReserved_eq_false hd).2
  have hstep : step d st d.stop rest = .ok ((st.emit .stopDelimiter d.stop.utf8Size).close, rest) := by
    rw [step, hst]
    simp [stepExpression, hblank]
  refine ⟨_, scanFrom_of_step hstep, ?_, hliteral, ?_⟩
  · simp [ScanState.close, ScanState.emit, hst]
  · have hemit : (st.emit .stopDelimiter d.stop.utf8Size).literal = [] := hliteral
    rw [ScanState.tokens_close hemit, ScanState.tokens_emit hliteral]

end

/-! ## The parts of expressions -/

section
variable {σ : Type} {d : Delimiters} {rest : List Char}

theorem scannable_segments {segments : List Segment} (h : segments.all Segment.wellFormed = true)
    (hrest : Boundary rest) :
    Scannable d (segments.flatMap Segment.tokens) rest ∧
      Boundary (sources d (segments.flatMap Segment.tokens) ++ rest) := by
  induction segments with
  | nil => exact ⟨trivial, hrest⟩
  | cons segment segments ih =>
    rw [List.all_cons, Bool.and_eq_true] at h
    obtain ⟨hsegment, hsegments⟩ := h
    obtain ⟨hscannable, hboundary⟩ := ih hsegments
    cases segment with
    | property name =>
      have hname : isName name = true := hsegment
      exact ⟨.cons trivial rfl ⟨hname, fun _ => hboundary, hscannable⟩, boundary_cons (by decide) _⟩
    | index n =>
      have hn : n < wordLimit := of_decide_eq_true hsegment
      exact ⟨.cons trivial rfl ⟨hn, fun _ => hboundary, hscannable⟩, boundary_cons (by decide) _⟩

theorem scannable_path {p : Path σ} (h : p.wellFormed = true) (hrest : Boundary rest) :
    Scannable d p.tokens rest := by
  rw [Path.wellFormed, Bool.and_eq_true] at h
  obtain ⟨hsegments, hboundary⟩ := scannable_segments (d := d) h.2 hrest
  exact ⟨h.1, fun _ => hboundary, hsegments⟩

theorem scannable_argument {a : Argument σ} (h : a.wellFormed = true) (hrest : Boundary rest) :
    Scannable d a.tokens rest := by
  cases a with
  | path p => exact scannable_path h hrest
  | literal text => exact .cons trivial rfl trivial

theorem scannable_furtherArguments {args : List (Argument σ)} (h : args.all Argument.wellFormed = true) :
    Scannable d (Argument.furtherTokens args) rest ∧
      Boundary (sources d (Argument.furtherTokens args) ++ rest) := by
  induction args with
  | nil => exact ⟨.cons trivial rfl trivial, boundary_cons (by decide) _⟩
  | cons a args ih =>
    rw [List.all_cons, Bool.and_eq_true] at h
    obtain ⟨hscannable, hboundary⟩ := ih h.2
    refine ⟨.cons trivial rfl ?_, boundary_cons (by decide) _⟩
    exact (scannable_argument h.1 hboundary).append hscannable

theorem scannable_arguments {args : List (Argument σ)} (h : args.all Argument.wellFormed = true) :
    Scannable d (Argument.tokensAll args) rest := by
  cases args with
  | nil => exact .cons trivial rfl trivial
  | cons a args =>
    rw [List.all_cons, Bool.and_eq_true] at h
    have hfurther : Scannable d (Argument.furtherTokens args) rest ∧
        Boundary (sources d (Argument.furtherTokens args) ++ rest) := scannable_furtherArguments h.2
    obtain ⟨hscannable, hboundary⟩ := hfurther
    exact (scannable_argument h.1 hboundary).append hscannable

theorem isName_listFunction (fn : ListFunction) : isName fn.name = true := by
  cases fn <;> decide

theorem scannable_primary {p : Primary σ} (h : p.wellFormed = true) (hrest : Boundary rest) :
    Scannable d p.tokens rest := by
  cases p with
  | path p => exact scannable_path h hrest
  | call name place args =>
    rw [Primary.wellFormed, Bool.and_eq_true, Bool.and_eq_true] at h
    exact ⟨h.1.1, fun _ => boundary_cons (by decide) _, .cons trivial rfl (scannable_arguments h.2)⟩
  | function fn arg =>
    have harg : [arg].all Argument.wellFormed = true := by simpa [Primary.wellFormed] using h
    exact ⟨isName_listFunction fn, fun _ => boundary_cons (by decide) _,
      .cons trivial rfl (scannable_arguments harg)⟩

theorem scannable_setting {s : Setting} (h : s.WellFormed) (hrest : Boundary rest) :
    Scannable d s.tokens rest := by
  have hword : ∀ name, isName name = true → ∀ t : Token, t.Printable → (t.isOpen = true → Boundary rest) →
      Scannable d [.word name, .equals, t] rest :=
    fun name hname t ht ho =>
      ⟨hname, fun _ => boundary_cons (by decide) _, .cons trivial rfl ⟨ht, ho, trivial⟩⟩
  cases s with
  | format text => exact hword "format" (by decide) _ trivial (fun h => nomatch h)
  | separator text => exact hword "separator" (by decide) _ trivial (fun h => nomatch h)
  | anchor => exact ⟨show isName "anchor" = true by decide, fun _ => hrest, trivial⟩
  | wrap w =>
    cases w with
    | lineWidth => exact ⟨show isName "wrap" = true by decide, fun _ => hrest, trivial⟩
    | width n => exact hword "wrap" (by decide) (.int n) (h n rfl).2 (fun _ => hrest)

theorem scannable_settings {found : List Setting} (h : ∀ s ∈ found, s.WellFormed) (hrest : Boundary rest) :
    Scannable d (Setting.tokensAll found) rest := by
  induction found with
  | nil => trivial
  | cons s found ih =>
    have hs := h s List.mem_cons_self
    have hfound := ih fun s' hs' => h s' (List.mem_cons_of_mem s hs')
    cases found with
    | nil => exact scannable_setting hs hrest
    | cons s' found =>
      have hcomma : Scannable d (.comma :: Setting.tokensAll (s' :: found)) rest := .cons trivial rfl hfound
      exact (scannable_setting hs (boundary_cons (by decide) _)).append hcomma

theorem scannable_options {o : Options} (h : o.wellFormed = true) (hrest : Boundary rest) :
    Scannable d o.tokens rest := by
  rw [Options.tokens]
  split
  · trivial
  · exact .cons trivial rfl (scannable_settings (Options.wellFormed_settings h) hrest)

theorem boundary_options (o : Options) (hrest : Boundary rest) : Boundary (sources d o.tokens ++ rest) := by
  rw [Options.tokens]
  split
  · exact hrest
  · exact boundary_cons (by decide) _

end

end Stencil.Template
