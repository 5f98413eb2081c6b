/-!
# Byte positions in a text

Positions are byte offsets into the UTF-8 form of a source text. A text itself is a list of
characters, so an offset stands on a character boundary exactly when it is the length of a
prefix: `takeBytes?` finds that prefix.
-/

namespace Stencil

/-- The number of bytes of a text in UTF-8. -/
def byteLength (cs : List Char) : Nat :=
  cs.foldr (fun c n => c.utf8Size + n) 0

@[simp] theorem byteLength_nil : byteLength [] = 0 := rfl

@[simp] theorem byteLength_cons (c : Char) (cs : List Char) :
    byteLength (c :: cs) = c.utf8Size + byteLength cs := rfl

@[simp] theorem byteLength_append (cs ds : List Char) :
    byteLength (cs ++ ds) = byteLength cs + byteLength ds := by
  induction cs with
  | nil => simp
  | cons c cs ih => simp [ih, Nat.add_assoc]

/-- The prefix of exactly `n` bytes, if a character boundary lies there. -/
def takeBytes? : Nat → List Char → Option (List Char)
  | 0, _ => some []
  | _ + 1, [] => none
  | n + 1, c :: cs =>
    if c.utf8Size ≤ n + 1 then (takeBytes? (n + 1 - c.utf8Size) cs).map (c :: ·) else none

/-- A range of byte offsets, from `start` up to and without `stop`. An error at the end of the input
may have its `stop` before its `start`. -/
structure Span where
  start : Nat
  /-- The offset just past the last byte. -/
  stop : Nat
deriving DecidableEq, Repr

def Span.ofChar (start : Nat) (c : Char) : Span :=
  ⟨start, start + c.utf8Size⟩

/-- A token and where it stands in the source. -/
structure Located (τ : Type) where
  token : τ
  span : Span
deriving Repr, DecidableEq

/-- A value read from the beginning of a list of tokens, and the tokens that are left. -/
structure Parsed (α : Type) {τ : Type} (ts : List τ) where
  value : α
  rest : List τ
  length_rest_le : rest.length ≤ ts.length

theorem length_lt_of_eq_cons {τ : Type} {ts r r' : List τ} {t : τ} (hr : r = t :: r')
    (h : r.length ≤ ts.length) : r'.length < ts.length := by
  subst hr
  exact h

namespace Parsed

variable {α β τ : Type} {ts ts' : List τ}

def here (x : α) (ts : List τ) : Parsed α ts :=
  ⟨x, ts, Nat.le_refl _⟩

def map (f : α → β) (p : Parsed α ts) : Parsed β ts :=
  ⟨f p.value, p.rest, p.length_rest_le⟩

/-- What is read behind a token. -/
def behind (t : τ) (p : Parsed α ts) : Parsed α (t :: ts) :=
  ⟨p.value, p.rest, Nat.le_succ_of_le p.length_rest_le⟩

/-- What is read from the tokens that something else has left. -/
def after (p : Parsed α ts') (h : ts'.length ≤ ts.length) : Parsed α ts :=
  ⟨p.value, p.rest, Nat.le_trans p.length_rest_le h⟩

end Parsed

/-- Where the end of a source is reported: from its length back to the end of its last token. -/
def endOfInput {τ : Type} (length : Nat) (tokens : List (Located τ)) : Span :=
  ⟨length, (tokens.getLast?.map (·.span.stop)).getD length⟩

/-- The line and the column of an offset, both counted from one (`line_col`). An offset past the end stands for the
end; so does one inside a character. -/
def lineColumn (source : List Char) (offset : Nat) : Nat × Nat :=
  let before := (takeBytes? (min offset (byteLength source)) source).getD source
  (before.count '\n' + 1, (before.reverse.takeWhile (· ≠ '\n')).length + 1)

end Stencil
