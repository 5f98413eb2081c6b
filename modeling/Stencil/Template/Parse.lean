import Stencil.Template.Node
import Stencil.Template.Scan

/-!
# Parsing template text

`parse` reads the tree of a template from its tokens. At every token at most one form of the grammar can
go on, so the parser never goes back, and the first token that fits nowhere is the one that is reported.
Two checks look at a whole construct once it has been read: an anonymous template with too many
parameters, and a repeated option. The second comes before a fault in a later option of the same list.
-/

namespace Stencil.Template

abbrev Lexeme := Located Token

def unexpected (eof : Span) (ts : List Lexeme) : SyntaxError :=
  .unexpected .unexpectedToken eof ts

variable (eof : Span)

def segments (ts : List Lexeme) : Except SyntaxError (Parsed (List Segment) ts) :=
  match ts with
  | ⟨.dot, _⟩ :: ⟨.word name, _⟩ :: r => do
    let ⟨more, rest, h⟩ ← segments r
    return ⟨.property name :: more, rest, by simp; omega⟩
  | ⟨.dot, _⟩ :: ⟨.int n, _⟩ :: r => do
    let ⟨more, rest, h⟩ ← segments r
    return ⟨.index n :: more, rest, by simp; omega⟩
  | ⟨.dot, _⟩ :: r => .error (unexpected eof r)
  | r => .ok ⟨[], r, Nat.le_refl _⟩

def argument (ts : List Lexeme) : Except SyntaxError (Parsed (Argument Span) ts) :=
  match ts with
  | ⟨.str s, _⟩ :: r => .ok ⟨.literal s, r, by simp⟩
  | ⟨.word name, place⟩ :: r => do
    let ⟨segments, rest, h⟩ ← segments eof r
    return ⟨.path ⟨name, place, segments⟩, rest, by simp; omega⟩
  | r => .error (unexpected eof r)

/-- Reads what follows an argument, up to the closing parenthesis. -/
def furtherArguments (ts : List Lexeme) : Except SyntaxError (Parsed (List (Argument Span)) ts) :=
  match ts with
  | ⟨.parenClose, _⟩ :: r => .ok ⟨[], r, by simp⟩
  | ⟨.comma, _⟩ :: r => do
    let ⟨a, r₁, h₁⟩ ← argument eof r
    let ⟨more, rest, h⟩ ← furtherArguments r₁
    return ⟨a :: more, rest, by simp; omega⟩
  | r => .error (unexpected eof r)
termination_by ts.length
decreasing_by simp; omega

def arguments (ts : List Lexeme) : Except SyntaxError (Parsed (List (Argument Span)) ts) :=
  match ts with
  | ⟨.parenClose, _⟩ :: r => .ok ⟨[], r, by simp⟩
  | r => do
    let ⟨a, r₁, h₁⟩ ← argument eof r
    let ⟨more, rest, h⟩ ← furtherArguments eof r₁
    return ⟨a :: more, rest, by omega⟩

/-- Reads a primary. A list function has exactly one argument: with any other number its parenthesis
fits nowhere. -/
def primary (ts : List Lexeme) : Except SyntaxError (Parsed (Primary Span) ts) :=
  match ts with
  | ⟨.word name, place⟩ :: ⟨.parenOpen, paren⟩ :: r => do
    let ⟨args, rest, h⟩ ← arguments eof r
    match ListFunction.ofName? name, args with
    | none, _ => return ⟨.call name place args, rest, by simp; omega⟩
    | some f, [a] => return ⟨.function f a, rest, by simp; omega⟩
    | some _, _ => .error ⟨paren, .unexpectedToken .parenOpen⟩
  | ⟨.word name, place⟩ :: r => do
    let ⟨segments, rest, h⟩ ← segments eof r
    return ⟨.path ⟨name, place, segments⟩, rest, by simp; omega⟩
  | r => .error (unexpected eof r)

/-! ## Options -/

/-- One entry of an option list (`Directive`). -/
inductive Setting where
  | format (s : String)
  | wrap (w : Wrap)
  | anchor
  | separator (s : String)
deriving DecidableEq, Repr

def Setting.key : Setting → OptionKey
  | format _ => .format
  | wrap _ => .wrap
  | anchor => .anchor
  | separator _ => .separator

def Options.apply (o : Options) : Setting → Options
  | .format s => { o with format := some s }
  | .wrap w => { o with wrap := some w }
  | .anchor => { o with anchor := true }
  | .separator s => { o with separator := some s }

/-- The setting of a key and a value (`directive`). -/
def Setting.ofEntry (key : String) (value : Option Token) : Except SyntaxFault Setting :=
  match key, value with
  | "format", some (.str s) => .ok (.format s)
  | "format", _ => .error (.stringExpected .format)
  | "separator", some (.str s) => .ok (.separator s)
  | "separator", _ => .error (.stringExpected .separator)
  | "wrap", none => .ok (.wrap .lineWidth)
  | "wrap", some (.int n) => if 0 < n then .ok (.wrap (.width n)) else .error .widthExpected
  | "wrap", _ => .error .widthExpected
  | "anchor", none => .ok .anchor
  | "anchor", some _ => .error .valueNotAllowed
  | other, _ => .error (.unknownOption other)

def Token.isOptionValue : Token → Bool
  | .str _ => true
  | .int _ => true
  | .word _ => true
  | _ => false

/-- The settings of an option list up to its end or its first fault, each with the offset of its end, and
then the tokens that are left or the fault. An equals sign without a value after it is such a fault, but
the key before it still counts as a setting. -/
def settings (ts : List Lexeme) :
    List (Setting × Nat) × Except SyntaxError { rest : List Lexeme // rest.length ≤ ts.length } :=
  match ts with
  | ⟨.word key, k⟩ :: ⟨.equals, e⟩ :: r =>
    match r with
    | ⟨v, p⟩ :: r₁ =>
      if v.isOptionValue then
        match Setting.ofEntry key (some v) with
        | .error fault => ([], .error ⟨⟨k.start, p.stop⟩, fault⟩)
        | .ok s =>
          match r₁ with
          | ⟨.comma, _⟩ :: r₂ =>
            let (more, after) := settings r₂
            ((s, p.stop) :: more, after.map fun ⟨rest, h⟩ => ⟨rest, by simp; omega⟩)
          | r₂ => ([(s, p.stop)], .ok ⟨r₂, by simp; omega⟩)
      else
        match Setting.ofEntry key none with
        | .error fault => ([], .error ⟨k, fault⟩)
        | .ok s => ([(s, k.stop)], .error (unexpected eof (⟨v, p⟩ :: r₁)))
    | [] =>
      match Setting.ofEntry key none with
      | .error fault => ([], .error ⟨k, fault⟩)
      | .ok s => ([(s, k.stop)], .error (unexpected eof []))
  | ⟨.word key, k⟩ :: r =>
    match Setting.ofEntry key none with
    | .error fault => ([], .error ⟨k, fault⟩)
    | .ok s =>
      match r with
      | ⟨.comma, _⟩ :: r₁ =>
        let (more, after) := settings r₁
        ((s, k.stop) :: more, after.map fun ⟨rest, h⟩ => ⟨rest, by simp; omega⟩)
      | r₁ => ([(s, k.stop)], .ok ⟨r₁, by simp⟩)
  | r => ([], .error (unexpected eof r))

/-- The first setting whose option was set before. -/
def repeated? (seen : List OptionKey) : List Setting → Option OptionKey
  | [] => none
  | s :: rest => if seen.contains s.key then some s.key else repeated? (s.key :: seen) rest

def options (ts : List Lexeme) : Except SyntaxError (Parsed Options ts) :=
  match ts with
  | ⟨.semicolon, semicolon⟩ :: r =>
    let (found, after) := settings eof r
    match repeated? [] (found.map (·.1)), after with
    | some key, _ =>
      let stop := (found.getLast?.map (·.2)).getD semicolon.stop
      .error ⟨⟨semicolon.start, stop⟩, .repeatedOption key⟩
    | none, .error e => .error e
    | none, .ok ⟨rest, h⟩ =>
      .ok ⟨(found.map (·.1)).foldl Options.apply {}, rest, by simp; omega⟩
  | r => .ok ⟨{}, r, Nat.le_refl _⟩

/-! ## Nodes -/

/-- Reads the parameters of an anonymous template, up to the bar. -/
def furtherParameters (ts : List Lexeme) : Except SyntaxError (Parsed (List String) ts) :=
  match ts with
  | ⟨.word name, _⟩ :: ⟨.pipe, _⟩ :: r => .ok ⟨[name], r, by simp; omega⟩
  | ⟨.word name, _⟩ :: ⟨.comma, _⟩ :: r => do
    let ⟨more, rest, h⟩ ← furtherParameters r
    return ⟨name :: more, rest, by simp; omega⟩
  | ⟨.word _, _⟩ :: r => .error (unexpected eof r)
  | r => .error (unexpected eof r)

def parameters (ts : List Lexeme) : Except SyntaxError (Parsed (List String) ts) :=
  match ts with
  | ⟨.word name, place⟩ :: r => furtherParameters eof (⟨.word name, place⟩ :: r)
  | r => .ok ⟨[], r, Nat.le_refl _⟩

/-- The beginning of a region. -/
inductive RegionHead where
  /-- The region has no text of its own; its tag ends at the offset. -/
  | slot (name : String) (stop : Nat)
  | block (name : String)
deriving DecidableEq, Repr

def regionHead (ts : List Lexeme) : Except SyntaxError (Parsed RegionHead ts) :=
  match ts with
  | ⟨.word name, _⟩ :: ⟨.stopDelimiter, _⟩ :: r => .ok ⟨.block name, r, by simp; omega⟩
  | ⟨.word name, _⟩ :: ⟨.parenOpen, _⟩ :: ⟨.parenClose, _⟩ :: ⟨.stopDelimiter, c⟩ :: r =>
    .ok ⟨.slot name c.stop, r, by simp; omega⟩
  | ⟨.word _, _⟩ :: ⟨.parenOpen, _⟩ :: ⟨.parenClose, _⟩ :: r => .error (unexpected eof r)
  | ⟨.word _, _⟩ :: ⟨.parenOpen, _⟩ :: r => .error (unexpected eof r)
  | ⟨.word _, _⟩ :: r => .error (unexpected eof r)
  | r => .error (unexpected eof r)

/-- Reads the tag that closes a region; its value is the offset of its end. -/
def regionEnd (ts : List Lexeme) : Except SyntaxError (Parsed Nat ts) :=
  match ts with
  | ⟨.startDelimiter, _⟩ :: ⟨.atSign, _⟩ :: ⟨.word "end", _⟩ :: ⟨.stopDelimiter, c⟩ :: r =>
    .ok ⟨c.stop, r, by simp; omega⟩
  | ⟨.startDelimiter, _⟩ :: ⟨.atSign, _⟩ :: ⟨.word "end", _⟩ :: r => .error (unexpected eof r)
  | r => .error (unexpected eof r)

/-- The error at what follows a list of nodes that no region encloses: the tag that would close one is
refused at its name. -/
def unexpectedAfterNodes : List Lexeme → SyntaxError
  | ⟨.startDelimiter, _⟩ :: ⟨.atSign, _⟩ :: ⟨.word "end", place⟩ :: _ =>
    ⟨place, .unexpectedToken (.word "end")⟩
  | r => unexpected eof r

mutual

/-- Reads nodes as far as they go. -/
def nodes (ts : List Lexeme) : Except SyntaxError (Parsed (List (Node Span)) ts) :=
  match ts with
  | ⟨.text s, place⟩ :: r => do
    let ⟨more, rest, h⟩ ← nodes r
    return ⟨.literal s place :: more, rest, by simp; omega⟩
  | ⟨.startDelimiter, o⟩ :: ⟨.atSign, a⟩ :: ⟨.word "end", p⟩ :: r =>
    .ok ⟨[], ⟨.startDelimiter, o⟩ :: ⟨.atSign, a⟩ :: ⟨.word "end", p⟩ :: r, Nat.le_refl _⟩
  | ⟨.startDelimiter, o⟩ :: ⟨.atSign, _⟩ :: r => do
    let ⟨head, r₁, h₁⟩ ← regionHead eof r
    match head with
    | .slot name stop =>
      let ⟨more, rest, h⟩ ← nodes r₁
      return ⟨.slot name ⟨o.start, stop⟩ :: more, rest, by simp; omega⟩
    | .block name =>
      let ⟨body, r₂, h₂⟩ ← nodes r₁
      let ⟨stop, r₃, h₃⟩ ← regionEnd eof r₂
      let ⟨more, rest, h⟩ ← nodes r₃
      return ⟨.region name body ⟨o.start, stop⟩ :: more, rest, by simp; omega⟩
  | ⟨.startDelimiter, o⟩ :: r => do
    let ⟨primary, r₁, h₁⟩ ← primary eof r
    let ⟨targets, r₂, h₂⟩ ← targets r₁
    let ⟨options, r₃, h₃⟩ ← options eof r₂
    match h₄ : r₃ with
    | ⟨.stopDelimiter, c⟩ :: r₄ =>
      have h₄ := congrArg List.length h₄
      let ⟨more, rest, h⟩ ← nodes r₄
      return ⟨.expression primary targets options ⟨o.start, c.stop⟩ :: more, rest, by
        simp at h₄ ⊢; omega⟩
    | r₄ => .error (unexpected eof r₄)
  | r => .ok ⟨[], r, Nat.le_refl _⟩
termination_by ts.length
decreasing_by all_goals (simp only [List.length_cons] at *; omega)

def targets (ts : List Lexeme) : Except SyntaxError (Parsed (List (Target Span)) ts) :=
  match ts with
  | ⟨.colon, o⟩ :: ⟨.braceOpen, b⟩ :: r => do
    let ⟨params, r₁, h₁⟩ ← parameters eof r
    let ⟨body, r₂, h₂⟩ ← nodes r₁
    match h₃ : r₂ with
    | ⟨.braceClose, c⟩ :: r₃ =>
      have h₃ := congrArg List.length h₃
      if 2 < params.length then .error ⟨⟨b.start, c.stop⟩, .tooManyParameters⟩
      else
        let ⟨more, rest, h⟩ ← targets r₃
        return ⟨.anonymous params body ⟨o.start, c.stop⟩ :: more, rest, by simp at h₃ ⊢; omega⟩
    | r₃ => .error (unexpectedAfterNodes eof r₃)
  | ⟨.colon, o⟩ :: ⟨.word name, _⟩ :: ⟨.parenOpen, _⟩ :: ⟨.parenClose, c⟩ :: r => do
    let ⟨more, rest, h⟩ ← targets r
    return ⟨.named name ⟨o.start, c.stop⟩ :: more, rest, by simp; omega⟩
  | ⟨.colon, _⟩ :: ⟨.word _, _⟩ :: ⟨.parenOpen, _⟩ :: r => .error (unexpected eof r)
  | ⟨.colon, _⟩ :: ⟨.word _, _⟩ :: r => .error (unexpected eof r)
  | ⟨.colon, _⟩ :: r => .error (unexpected eof r)
  | r => .ok ⟨[], r, Nat.le_refl _⟩
termination_by ts.length
decreasing_by all_goals (simp only [List.length_cons] at *; omega)

end

/-- The tree of a list of tokens (`template_parser`). -/
def parseTokens (ts : List Lexeme) : Except SyntaxError (List (Node Span)) := do
  let ⟨found, rest, _⟩ ← nodes eof ts
  match rest with
  | [] => return found
  | r => .error (unexpectedAfterNodes eof r)

/-- The tree of a template source. -/
def parse (d : Delimiters) (source : List Char) : Except SyntaxError (List (Node Span)) := do
  let tokens ← scan d source
  parseTokens (endOfInput (byteLength source) tokens) tokens

end Stencil.Template
