import Stencil.SyntaxError
import Stencil.Text.Blank
import Stencil.Text.StringLiteral
import Stencil.Text.Word

/-!
# Scanning template text

`scan` cuts a template into tokens. Literal text and expressions alternate: a start delimiter opens an
expression, a brace inside an expression opens the text of an anonymous template, and each is closed by
its own character. What is open is a stack in the state, so the scanner is one loop over the characters;
every step takes at least one of them (`length_le_of_step`), which is why it ends.
-/

namespace Stencil.Template

/-- Something that is still to be closed, with the offset at which it was opened. -/
inductive Opening where
  | expression (offset : Nat)
  | braces (offset : Nat)
deriving DecidableEq, Repr

/-- The scanner between two steps (`Scanner`). -/
structure ScanState where
  /-- What is open, innermost first. With nothing or braces on top, literal text is scanned. -/
  openings : List Opening := []
  /-- The literal text since the last token, in reverse and with its escapes resolved. -/
  literal : List Char := []
  literalStart : Nat := 0
  pos : Nat := 0
  /-- The tokens so far, in reverse. -/
  emitted : List (Located Token) := []
deriving Repr, DecidableEq

namespace ScanState

def inBraces (st : ScanState) : Bool :=
  match st.openings with
  | .braces _ :: _ => true
  | _ => false

def skip (st : ScanState) (bytes : Nat) : ScanState :=
  { st with pos := st.pos + bytes }

/-- Adds a character to the literal text and passes over its `bytes` bytes. -/
def keep (st : ScanState) (c : Char) (bytes : Nat) : ScanState :=
  { st with literal := c :: st.literal, pos := st.pos + bytes }

def emit (st : ScanState) (token : Token) (bytes : Nat) : ScanState :=
  { st with
    emitted := ⟨token, ⟨st.pos, st.pos + bytes⟩⟩ :: st.emitted
    pos := st.pos + bytes }

/-- Emits the literal text, if there is any. -/
def flush (st : ScanState) : ScanState :=
  if st.literal.isEmpty then st
  else
    { st with
      emitted := ⟨.text (String.ofList st.literal.reverse), ⟨st.literalStart, st.pos⟩⟩ :: st.emitted
      literal := [] }

/-- Closes the innermost opening. Literal text that follows begins here. -/
def close (st : ScanState) : ScanState :=
  { st with openings := st.openings.tail, literalStart := st.pos }

end ScanState

/-- Finds the end of a comment (`comment`): the bytes up to and with the exclamation mark and stop delimiter that end
it, and what follows. -/
def skipComment (stop : Char) : List Char → Option (Nat × List Char)
  | [] => none
  | c :: cs =>
    match c == '!', cs with
    | true, next :: rest =>
      if next == stop then some (1 + stop.utf8Size, rest)
      else (skipComment stop cs).map fun (bytes, after) => (c.utf8Size + bytes, after)
    | _, _ => (skipComment stop cs).map fun (bytes, after) => (c.utf8Size + bytes, after)

/-- Reads four hexadecimal digits as a code point. A plus sign may take the place of the first digit. -/
def codePoint? (a b c d : Char) : Option Char := do
  let n ← numeralValue? 16 (if a == '+' then [b, c, d] else [a, b, c, d])
  if n < 0xD800 ∨ 0xDFFF < n then some (Char.ofNat n) else none

/-- Reads the escapes of an escape tag, from the first backslash to the stop delimiter (`escape_sequence`). `opened`
is the offset of the tag, `pos` that of the text, and `found` holds the characters so far, in reverse. The answer is
all characters in reverse, the offset after the tag and what follows it. -/
def escapeTag (stop : Char) (opened : Nat) :
    (pos : Nat) → (found : List Char) → List Char → Except SyntaxError (List Char × Nat × List Char)
  | pos, found, '\\' :: 'n' :: cs => escapeTag stop opened (pos + 2) ('\n' :: found) cs
  | pos, found, '\\' :: 't' :: cs => escapeTag stop opened (pos + 2) ('\t' :: found) cs
  | pos, found, '\\' :: 'r' :: cs => escapeTag stop opened (pos + 2) ('\r' :: found) cs
  | pos, found, '\\' :: ' ' :: cs => escapeTag stop opened (pos + 2) (' ' :: found) cs
  | pos, found, '\\' :: 'u' :: a :: b :: c :: d :: cs =>
    match codePoint? a b c d with
    | some x => escapeTag stop opened (pos + 6) (x :: found) cs
    | none => .error ⟨⟨pos + 1, pos + 2⟩, .invalidCodePoint⟩
  | pos, _, '\\' :: 'u' :: _ => .error ⟨⟨pos + 1, pos + 2⟩, .invalidCodePoint⟩
  | pos, _, '\\' :: _ => .error ⟨⟨pos, pos + 2⟩, .unknownEscape⟩
  | pos, found, c :: cs =>
    if c == stop && !found.isEmpty then .ok (found, pos + c.utf8Size, cs)
    else .error ⟨⟨opened, pos⟩, .malformedEscape⟩
  | pos, _, [] => .error ⟨⟨opened, pos⟩, .malformedEscape⟩

/-- Reads the parameters at the beginning of an anonymous template, up to the bar after them and the spaces and tabs
that follow it (`template_params`): the tokens, the offset after them and what follows. There is no header where the
text does not have this form. -/
def header? (pos : Nat) (cs : List Char) : Option (List (Located Token) × Nat × List Char) :=
  match _h : splitWord? (cs.dropWhile isAsciiBlank) with
  | none => none
  | some (name, r) =>
    let start := pos + (cs.takeWhile isAsciiBlank).length
    let stop := start + name.length
    let mark := stop + (r.takeWhile isAsciiBlank).length
    let word : Located Token := ⟨.word (String.ofList name), ⟨start, stop⟩⟩
    match _h' : r.dropWhile isAsciiBlank with
    | ',' :: rest =>
      (header? (mark + 1) rest).map fun (tokens, p, after) =>
        (word :: ⟨.comma, ⟨mark, mark + 1⟩⟩ :: tokens, p, after)
    | '|' :: rest =>
      some ([word, ⟨.pipe, ⟨mark, mark + 1⟩⟩], mark + 1 + (rest.takeWhile isInlineBlank).length,
        rest.dropWhile isInlineBlank)
    | _ => none
termination_by cs.length
decreasing_by
  have h₁ := length_lt_of_splitWord? _h
  have h₂ := congrArg List.length _h'
  have h₃ := length_dropWhile_le isAsciiBlank cs
  have h₄ := length_dropWhile_le isAsciiBlank r
  simp at h₂
  omega

/-- The punctuation marks of expressions, braces apart. -/
def punctuation? : Char → Option Token
  | '.' => some .dot
  | ':' => some .colon
  | ';' => some .semicolon
  | ',' => some .comma
  | '=' => some .equals
  | '|' => some .pipe
  | '@' => some .atSign
  | '(' => some .parenOpen
  | ')' => some .parenClose
  | _ => none

/-- The longest token of an expression that begins with `c`, with its further characters and what
follows it. An integer of a machine word or more is no token. -/
def expressionToken? (c : Char) (cs : List Char) : Option (Token × List Char × List Char) :=
  match punctuation? c with
  | some token => some (token, [], cs)
  | none =>
    if isWordStart c then
      let more := cs.takeWhile isWordPart
      some (.word (String.ofList (c :: more)), more, cs.dropWhile isWordPart)
    else if c == '%' then
      let more := cs.takeWhile Char.isDigit
      if more.isEmpty then none
      else some (.word (String.ofList (c :: more)), more, cs.dropWhile Char.isDigit)
    else if c.isDigit then
      let more := cs.takeWhile Char.isDigit
      let n := decimalValue (c :: more)
      if n < wordLimit then some (.int n, more, cs.dropWhile Char.isDigit) else none
    else if c == '"' then
      match scanLiteral cs with
      | (body, some rest) => some (.str (String.ofList (unescape body)), body ++ ['"'], rest)
      | (_, none) => none
    else none

/-- One step in literal text, at the character `c` (`text`). -/
def stepText (d : Delimiters) (st : ScanState) (c : Char) (cs : List Char) :
    Except SyntaxError (ScanState × List Char) :=
  if c == '\\' then
    match cs with
    | next :: rest =>
      if next == d.start || (st.inBraces && next == '\x7d') then
        .ok (st.keep next (1 + next.utf8Size), rest)
      else .ok (st.keep '\\' 1, cs)
    | [] => .ok (st.keep '\\' 1, cs)
  else if st.inBraces && c == '\x7d' then
    .ok ((st.flush.emit .braceClose 1).close, cs)
  else if c == d.start then
    match cs with
    | '!' :: rest =>
      match skipComment d.stop rest with
      | some (bytes, after) => .ok (st.skip (c.utf8Size + 1 + bytes), after)
      | none => .error ⟨⟨st.pos, st.pos + c.utf8Size + 1⟩, .unterminatedComment⟩
    | '\\' :: _ =>
      match escapeTag d.stop st.pos (st.pos + c.utf8Size) [] cs with
      | .ok (found, pos, after) => .ok ({ st with literal := found ++ st.literal, pos := pos }, after)
      | .error e => .error e
    | _ =>
      let st' := st.flush.emit .startDelimiter c.utf8Size
      .ok ({ st' with openings := .expression st.pos :: st'.openings }, cs)
  else .ok (st.keep c c.utf8Size, cs)

/-- One step in an expression, at the character `c` (`expression`). -/
def stepExpression (d : Delimiters) (st : ScanState) (c : Char) (cs : List Char) :
    Except SyntaxError (ScanState × List Char) :=
  if isBlank c then .ok (st.skip c.utf8Size, cs)
  else if c == d.stop then .ok ((st.emit .stopDelimiter c.utf8Size).close, cs)
  else if c == '\x7b' then
    let st' := st.emit .braceOpen 1
    let openings := .braces st.pos :: st.openings
    match header? st'.pos cs with
    | some (tokens, pos, rest) =>
      .ok ({ st' with openings, literalStart := pos, pos, emitted := tokens.reverse ++ st'.emitted },
        rest)
    | none => .ok ({ st' with openings, literalStart := st'.pos }, cs)
  else
    match expressionToken? c cs with
    | some (token, more, rest) => .ok (st.emit token (c.utf8Size + byteLength more), rest)
    | none => .error ⟨Span.ofChar st.pos c, .unexpectedCharacter c⟩

/-- One step of the scanner, at the character `c`: the state after it and the characters left. -/
def step (d : Delimiters) (st : ScanState) (c : Char) (cs : List Char) :
    Except SyntaxError (ScanState × List Char) :=
  match st.openings with
  | .expression _ :: _ => stepExpression d st c cs
  | _ => stepText d st c cs

/-- The end of the source: nothing may be open. -/
def finish (d : Delimiters) (st : ScanState) : Except SyntaxError (List (Located Token)) :=
  match st.openings with
  | [] => .ok st.flush.emitted.reverse
  | .expression offset :: _ =>
    .error ⟨⟨offset, offset + d.start.utf8Size⟩, .unterminatedExpression d.stop⟩
  | .braces offset :: _ => .error ⟨⟨offset, offset + 1⟩, .unterminatedBraces⟩

/-! ## Every step shortens the input -/

theorem length_le_of_skipComment {stop : Char} {cs rest : List Char} {n : Nat}
    (h : skipComment stop cs = some (n, rest)) : rest.length ≤ cs.length := by
  induction cs generalizing n with
  | nil => simp [skipComment] at h
  | cons c cs ih =>
    have tail : (skipComment stop cs).map (fun (bytes, after) => (c.utf8Size + bytes, after)) =
        some (n, rest) → rest.length ≤ (c :: cs).length := by
      intro h'
      simp only [Option.map_eq_some_iff, Prod.exists, Prod.mk.injEq] at h'
      obtain ⟨b, a, h₁, -, rfl⟩ := h'
      have := ih h₁
      simp; omega
    unfold skipComment at h
    split at h
    · split at h
      · simp only [Option.some.injEq, Prod.mk.injEq] at h
        simp [← h.2]; omega
      · exact tail h
    · exact tail h

theorem length_le_of_escapeTag {stop : Char} {opened pos p : Nat} {found out cs rest : List Char}
    (h : escapeTag stop opened pos found cs = .ok (out, p, rest)) : rest.length ≤ cs.length := by
  fun_induction escapeTag stop opened pos found cs <;> simp_all <;> omega

theorem length_le_of_header? {pos p : Nat} {cs rest : List Char} {tokens : List (Located Token)}
    (h : header? pos cs = some (tokens, p, rest)) : rest.length ≤ cs.length := by
  induction hn : cs.length using Nat.strongRecOn generalizing cs pos tokens p with
  | ind n ih =>
    unfold header? at h
    split at h
    · simp at h
    · next name r hw =>
      have h₁ := length_lt_of_splitWord? hw
      have h₂ := length_dropWhile_le isAsciiBlank cs
      have h₃ := length_dropWhile_le isAsciiBlank r
      dsimp only at h
      split at h
      · next rest' hr =>
        have h₄ := congrArg List.length hr
        simp only [Option.map_eq_some_iff, Prod.exists, Prod.mk.injEq] at h
        obtain ⟨ts, q, a, h₅, -, -, rfl⟩ := h
        simp at h₄
        have := ih rest'.length (by omega) h₅ rfl
        omega
      · next rest' hr =>
        have h₄ := congrArg List.length hr
        have h₅ := length_dropWhile_le isInlineBlank rest'
        simp only [Option.some.injEq, Prod.mk.injEq] at h
        rw [h.2.2] at h₅
        simp at h₄
        omega
      · simp at h

theorem length_le_of_expressionToken? {c : Char} {cs more rest : List Char} {token : Token}
    (h : expressionToken? c cs = some (token, more, rest)) : rest.length ≤ cs.length := by
  have drop := fun p : Char → Bool => length_dropWhile_le p cs
  unfold expressionToken? at h
  split at h
  · simp_all
  · split at h
    · have := drop isWordPart
      simp only [Option.some.injEq, Prod.mk.injEq] at h
      rwa [h.2.2] at this
    · split at h
      · have := drop Char.isDigit
        dsimp only at h
        split at h
        · simp at h
        · simp only [Option.some.injEq, Prod.mk.injEq] at h
          rwa [h.2.2] at this
      · split at h
        · have := drop Char.isDigit
          dsimp only at h
          split at h
          · simp only [Option.some.injEq, Prod.mk.injEq] at h
            rwa [h.2.2] at this
          · simp at h
        · split at h
          · split at h
            · next body r hs =>
              have := congrArg List.length (eq_append_of_scanLiteral hs)
              simp at h this
              obtain ⟨-, -, rfl⟩ := h
              omega
            · simp at h
          · simp at h

theorem length_le_of_stepExpression {d : Delimiters} {st st' : ScanState} {c : Char} {cs rest : List Char}
    (h : stepExpression d st c cs = .ok (st', rest)) : rest.length ≤ cs.length := by
  unfold stepExpression at h
  split at h
  · simp_all
  · split at h
    · simp_all
    · split at h
      · dsimp only at h
        split at h
        · next hh =>
          have := length_le_of_header? hh
          simp_all
        · simp_all
      · split at h
        · next ht =>
          have := length_le_of_expressionToken? ht
          simp_all
        · simp at h

theorem length_le_of_stepText {d : Delimiters} {st st' : ScanState} {c : Char} {cs rest : List Char}
    (h : stepText d st c cs = .ok (st', rest)) : rest.length ≤ cs.length := by
  unfold stepText at h
  split at h
  · split at h
    · split at h
      · simp only [Except.ok.injEq, Prod.mk.injEq] at h
        obtain ⟨-, rfl⟩ := h
        exact Nat.le_succ _
      · simp_all
    · simp_all
  · split at h
    · simp_all
    · split at h
      · split at h
        · split at h
          · next hc =>
            have := length_le_of_skipComment hc
            simp_all; omega
          · simp at h
        · split at h
          · next he =>
            have := length_le_of_escapeTag he
            simp_all
          · simp at h
        · simp_all
      · simp_all

/-- A step leaves no more than the characters after the one it looked at. -/
theorem length_le_of_step {d : Delimiters} {st st' : ScanState} {c : Char} {cs rest : List Char}
    (h : step d st c cs = .ok (st', rest)) : rest.length ≤ cs.length := by
  unfold step at h
  split at h
  · exact length_le_of_stepExpression h
  · exact length_le_of_stepText h

/-- The tokens of the rest of a source, after those of the state. -/
def scanFrom (d : Delimiters) (st : ScanState) (input : List Char) :
    Except SyntaxError (List (Located Token)) :=
  match input with
  | [] => finish d st
  | c :: cs =>
    match _h : step d st c cs with
    | .ok (st', rest) => scanFrom d st' rest
    | .error e => .error e
termination_by input.length
decreasing_by have := length_le_of_step _h; simp; omega

/-- The tokens of a template source (`lex`). -/
def scan (d : Delimiters) (source : List Char) : Except SyntaxError (List (Located Token)) :=
  scanFrom d {} source

end Stencil.Template
