import Stencil.Proofs.Text.Literal
import Stencil.Template.Parse

/-!
# Printing templates

A tree is printed as the text of a template. What stands in an expression is printed token by token; literal
text is printed character by character, with escapes for those that would be read otherwise. A body in braces
begins with an empty comment, which no one can take for a parameter. Trees that come from no text, such as one
with an empty literal, are not well-formed, and the delimiters must not be characters that mean something
themselves (`Delimiters.admissible`).
-/

namespace Stencil.Template

variable {σ : Type}

/-! ## Well-formed trees -/

/-- Whether the character may stand in an expression, or is blank or the exclamation mark of a comment. -/
def isReserved (c : Char) : Bool :=
  isBlank c || c.isAlphanum || ['_', '%', '"', '.', ':', ';', ',', '=', '|', '@', '(', ')', '\x7b', '\x7d',
    '\\', '!'].contains c

/-- Whether the delimiters can be told from everything else in a template. They may be the same. -/
def Delimiters.admissible (d : Delimiters) : Bool :=
  !isReserved d.start && !isReserved d.stop

/-- Whether the text is a name: a word, or a percent sign with a number. -/
def isName (s : String) : Bool :=
  isWord s.toList ||
    match s.toList with
    | '%' :: ds => !ds.isEmpty && ds.all Char.isDigit
    | _ => false

def Segment.wellFormed : Segment → Bool
  | .property name => isName name
  | .index n => decide (n < wordLimit)

def Path.wellFormed (p : Path σ) : Bool :=
  isName p.root && p.segments.all Segment.wellFormed

def Argument.wellFormed : Argument σ → Bool
  | .path p => p.wellFormed
  | .literal _ => true

/-- Whether the primary can be written. No template has the name of a list function. -/
def Primary.wellFormed : Primary σ → Bool
  | .path p => p.wellFormed
  | .call name _ args => isName name && (ListFunction.ofName? name).isNone && args.all Argument.wellFormed
  | .function _ arg => arg.wellFormed

def Options.wellFormed (o : Options) : Bool :=
  match o.wrap with
  | some (.width n) => decide (0 < n ∧ n < wordLimit)
  | _ => true

/-- Whether the nodes begin with literal text. -/
def Node.startsWithLiteral : List (Node σ) → Bool
  | .literal _ _ :: _ => true
  | _ => false

mutual

def Node.wellFormed : Node σ → Bool
  | .literal text _ => !text.toList.isEmpty
  | .slot name _ => isName name && name != "end"
  | .region name body _ => isName name && name != "end" && Node.wellFormedAll body
  | .expression p targets o _ => p.wellFormed && Target.wellFormedAll targets && o.wellFormed

/-- Whether the nodes can be written: no two literal texts stand side by side. -/
def Node.wellFormedAll : List (Node σ) → Bool
  | [] => true
  | n :: ns =>
    Node.wellFormed n && !(Node.startsWithLiteral [n] && Node.startsWithLiteral ns) && Node.wellFormedAll ns

def Target.wellFormed : Target σ → Bool
  | .anonymous params body _ =>
    decide (params.length ≤ 2) && params.all (fun p => isWord p.toList) && Node.wellFormedAll body
  | .named name _ => isName name

def Target.wellFormedAll : List (Target σ) → Bool
  | [] => true
  | t :: ts => Target.wellFormed t && Target.wellFormedAll ts

end

/-! ## Tokens -/

def Segment.tokens : Segment → List Token
  | .property name => [.dot, .word name]
  | .index n => [.dot, .int n]

def Path.tokens (p : Path σ) : List Token :=
  .word p.root :: p.segments.flatMap Segment.tokens

def Argument.tokens : Argument σ → List Token
  | .path p => p.tokens
  | .literal text => [.str text]

def Argument.furtherTokens : List (Argument σ) → List Token
  | [] => [.parenClose]
  | a :: as => .comma :: (a.tokens ++ Argument.furtherTokens as)

def Argument.tokensAll : List (Argument σ) → List Token
  | [] => [.parenClose]
  | a :: as => a.tokens ++ Argument.furtherTokens as

def Primary.tokens : Primary σ → List Token
  | .path p => p.tokens
  | .call name _ args => .word name :: .parenOpen :: Argument.tokensAll args
  | .function fn arg => .word fn.name :: .parenOpen :: Argument.tokensAll [arg]

/-- The settings that give the options. -/
def Options.settings (o : Options) : List Setting :=
  (o.format.map Setting.format).toList ++ (o.wrap.map Setting.wrap).toList ++
    (if o.anchor then [.anchor] else []) ++ (o.separator.map Setting.separator).toList

def Setting.WellFormed (s : Setting) : Prop :=
  ∀ n, s = .wrap (.width n) → 0 < n ∧ n < wordLimit

theorem Options.wellFormed_settings {o : Options} (h : o.wellFormed = true) :
    ∀ s ∈ o.settings, s.WellFormed := by
  rintro s hs n rfl
  obtain ⟨format, wrap, anchor, separator⟩ := o
  have hwrap : wrap = some (.width n) := by
    cases format <;> cases anchor <;> cases separator <;> simpa [Options.settings] using hs
  subst hwrap
  exact of_decide_eq_true h

def Setting.tokens : Setting → List Token
  | .format s => [.word "format", .equals, .str s]
  | .wrap .lineWidth => [.word "wrap"]
  | .wrap (.width n) => [.word "wrap", .equals, .int n]
  | .anchor => [.word "anchor"]
  | .separator s => [.word "separator", .equals, .str s]

def Setting.tokensAll : List Setting → List Token
  | [] => []
  | [s] => s.tokens
  | s :: rest => s.tokens ++ .comma :: Setting.tokensAll rest

/-- The tokens of options; none where no option is set. -/
def Options.tokens (o : Options) : List Token :=
  match o.settings with
  | [] => []
  | found => .semicolon :: Setting.tokensAll found

/-- The tokens of the parameters of an anonymous template. -/
def parameterTokens : List String → List Token
  | [] => []
  | [p] => [.word p, .pipe]
  | p :: ps => .word p :: .comma :: parameterTokens ps

mutual

def Node.tokens : Node σ → List Token
  | .literal text _ => [.text text]
  | .slot name _ => [.startDelimiter, .atSign, .word name, .parenOpen, .parenClose, .stopDelimiter]
  | .region name body _ =>
    [.startDelimiter, .atSign, .word name, .stopDelimiter] ++ Node.tokensAll body ++
      [.startDelimiter, .atSign, .word "end", .stopDelimiter]
  | .expression p targets o _ =>
    .startDelimiter :: (p.tokens ++ Target.tokensAll targets ++ o.tokens ++ [.stopDelimiter])

def Node.tokensAll : List (Node σ) → List Token
  | [] => []
  | n :: ns => Node.tokens n ++ Node.tokensAll ns

def Target.tokens : Target σ → List Token
  | .anonymous params body _ =>
    [.colon, .braceOpen] ++ parameterTokens params ++ Node.tokensAll body ++ [.braceClose]
  | .named name _ => [.colon, .word name, .parenOpen, .parenClose]

def Target.tokensAll : List (Target σ) → List Token
  | [] => []
  | t :: ts => Target.tokens t ++ Target.tokensAll ts

end

/-! ## Text -/

/-- The text of a token in an expression. -/
def Token.source (d : Delimiters) : Token → List Char
  | .text s => s.toList
  | .startDelimiter => [d.start]
  | .stopDelimiter => [d.stop]
  | .word name => name.toList
  | .str s => '"' :: (literalBody s.toList ++ ['"'])
  | .int n => numeral 10 n
  | .dot => ['.']
  | .colon => [':']
  | .semicolon => [';']
  | .comma => [',']
  | .equals => ['=']
  | .pipe => ['|']
  | .atSign => ['@']
  | .parenOpen => ['(']
  | .parenClose => [')']
  | .braceOpen => ['\x7b']
  | .braceClose => ['\x7d']

def sources (d : Delimiters) (ts : List Token) : List Char :=
  ts.flatMap (Token.source d)

def emptyComment (d : Delimiters) : List Char :=
  [d.start, '!', '!', d.stop]

/-- A character of literal text. A backslash is written by its code point; the start delimiter gets a
backslash, and in a body in braces so does the closing brace. -/
def printChar (d : Delimiters) (inBraces : Bool) (c : Char) : List Char :=
  if c == '\\' then [d.start, '\\', 'u', '0', '0', '5', 'c', d.stop]
  else if c == d.start || (inBraces && c == '\x7d') then ['\\', c]
  else [c]

mutual

def Node.print (d : Delimiters) (inBraces : Bool) : Node σ → List Char
  | .literal text _ => text.toList.flatMap (printChar d inBraces)
  | .slot name _ => d.start :: (sources d [.atSign, .word name, .parenOpen, .parenClose] ++ [d.stop])
  | .region name body _ =>
    d.start :: (sources d [.atSign, .word name] ++ [d.stop]) ++ Node.printAll d inBraces body ++
      d.start :: (sources d [.atSign, .word "end"] ++ [d.stop])
  | .expression p targets o _ =>
    d.start :: (sources d p.tokens ++ Target.printAll d targets ++ sources d o.tokens ++ [d.stop])

/-- The text of nodes, inside braces or not. -/
def Node.printAll (d : Delimiters) (inBraces : Bool) : List (Node σ) → List Char
  | [] => []
  | n :: ns => Node.print d inBraces n ++ Node.printAll d inBraces ns

def Target.print (d : Delimiters) : Target σ → List Char
  | .anonymous params body _ =>
    ':' :: '\x7b' :: (sources d (parameterTokens params) ++ emptyComment d ++ Node.printAll d true body ++
      ['\x7d'])
  | .named name _ => sources d [.colon, .word name, .parenOpen, .parenClose]

def Target.printAll (d : Delimiters) : List (Target σ) → List Char
  | [] => []
  | t :: ts => Target.print d t ++ Target.printAll d ts

end

end Stencil.Template
