import Stencil.GroupFile.Scan
import Stencil.Template.Compiled

/-!
# Parsing group files

A group file may begin with the delimiters of its templates. Declarations of templates and of region
bodies follow in any order. As in template text, at every token at most one form can go on, and the first
token that fits nowhere is reported; two checks look at a whole construct once it has been read, the
length of the delimiters and the parameters of a template.
-/

namespace Stencil.GroupFile

open Template (Delimiters Parameter)

abbrev Lexeme := Located Token

/-- A template that a group file declares. -/
structure TemplateDecl where
  name : String
  /-- The parameters, with pairwise different names. -/
  params : List Parameter
  body : String
  span : Span
deriving DecidableEq, Repr

/-- A body that a group file gives to a region of a template. -/
structure RegionDecl where
  template : String
  region : String
  body : String
  span : Span
deriving DecidableEq, Repr

inductive Declaration where
  | template (d : TemplateDecl)
  | region (d : RegionDecl)
deriving DecidableEq, Repr

/-- Everything that a group file declares. -/
structure GroupSource where
  delimiters : Option Delimiters := none
  templates : List TemplateDecl := []
  regions : List RegionDecl := []
deriving DecidableEq, Repr

def GroupSource.ofDeclarations (delimiters : Option Delimiters) (ds : List Declaration) :
    GroupSource where
  delimiters
  templates := ds.filterMap fun
    | .template d => some d
    | .region _ => none
  regions := ds.filterMap fun
    | .template _ => none
    | .region d => some d

def unexpected (eof : Span) (ts : List Lexeme) : SyntaxError :=
  .unexpected .unexpectedGroupToken eof ts

variable (eof : Span)

/-- Reads the given tokens, one after the other; the value is the offset of the end of the last. -/
def expect (expected : List Token) (stop : Nat) (ts : List Lexeme) :
    Except SyntaxError (Parsed Nat ts) :=
  match expected, ts with
  | [], r => .ok ⟨stop, r, Nat.le_refl _⟩
  | e :: es, t :: r =>
    if t.token = e then do
      let ⟨stop', rest, h⟩ ← expect es t.span.stop r
      return ⟨stop', rest, by simp; omega⟩
    else .error (unexpected eof (t :: r))
  | _ :: _, [] => .error (unexpected eof [])

def name (ts : List Lexeme) : Except SyntaxError (Parsed String ts) :=
  match ts with
  | ⟨.word n, _⟩ :: r => .ok ⟨n, r, by simp⟩
  | r => .error (unexpected eof r)

/-- Reads a quoted string, with the offset of its end. -/
def str (ts : List Lexeme) : Except SyntaxError (Parsed (String × Nat) ts) :=
  match ts with
  | ⟨.str s, p⟩ :: r => .ok ⟨(s, p.stop), r, by simp⟩
  | r => .error (unexpected eof r)

/-- Reads a body, with the offset of its end. -/
def body (ts : List Lexeme) : Except SyntaxError (Parsed (String × Nat) ts) :=
  match ts with
  | ⟨.str s, p⟩ :: r => .ok ⟨(s, p.stop), r, by simp⟩
  | ⟨.block s, p⟩ :: r => .ok ⟨(s, p.stop), r, by simp⟩
  | ⟨.joinedBlock s, p⟩ :: r => .ok ⟨(s, p.stop), r, by simp⟩
  | r => .error (unexpected eof r)

def parameter (ts : List Lexeme) : Except SyntaxError (Parsed Parameter ts) :=
  match ts with
  | ⟨.word n, _⟩ :: ⟨.equals, _⟩ :: r => do
    let ⟨(s, _), rest, h⟩ ← str eof r
    return ⟨⟨n, some s⟩, rest, by simp; omega⟩
  | ⟨.word n, _⟩ :: r => .ok ⟨⟨n, none⟩, r, by simp⟩
  | r => .error (unexpected eof r)

/-- Reads what follows a parameter, up to the closing parenthesis. -/
def furtherParameters (ts : List Lexeme) : Except SyntaxError (Parsed (List Parameter) ts) :=
  match ts with
  | ⟨.parenClose, _⟩ :: r => .ok ⟨[], r, by simp⟩
  | ⟨.comma, _⟩ :: r => do
    let ⟨p, r₁, h₁⟩ ← parameter eof r
    let ⟨more, rest, h⟩ ← furtherParameters r₁
    return ⟨p :: more, rest, by simp; omega⟩
  | r => .error (unexpected eof r)
termination_by ts.length
decreasing_by simp; omega

def parameters (ts : List Lexeme) : Except SyntaxError (Parsed (List Parameter) ts) :=
  match ts with
  | ⟨.parenClose, _⟩ :: r => .ok ⟨[], r, by simp⟩
  | r => do
    let ⟨p, r₁, h₁⟩ ← parameter eof r
    let ⟨more, rest, h⟩ ← furtherParameters eof r₁
    return ⟨p :: more, rest, by omega⟩

/-- The first name that stands in the list a second time. -/
def repeated? (seen : List String) : List String → Option String
  | [] => none
  | n :: ns => if seen.contains n then some n else repeated? (n :: seen) ns

/-- Reads the declaration of the template `n`, from what follows its name on. -/
def templateDecl (start : Nat) (n : String) (ts : List Lexeme) :
    Except SyntaxError (Parsed TemplateDecl ts) := do
  let ⟨_, r₂, h₂⟩ ← expect eof [.parenOpen] start ts
  let ⟨params, r₃, h₃⟩ ← parameters eof r₂
  let ⟨_, r₄, h₄⟩ ← expect eof [.defines] start r₃
  let ⟨(source, stop), rest, h⟩ ← body eof r₄
  match repeated? [] (params.map (·.name)) with
  | some p => .error ⟨⟨start, stop⟩, .repeatedParameter p n⟩
  | none => return (((Parsed.mk ⟨n, params, source, ⟨start, stop⟩⟩ rest h).after h₄).after h₃).after h₂

/-- Reads the declaration of a region body, from the template's name on. -/
def regionDecl (start : Nat) (ts : List Lexeme) : Except SyntaxError (Parsed RegionDecl ts) := do
  let ⟨template, r₁, h₁⟩ ← name eof ts
  let ⟨_, r₂, h₂⟩ ← expect eof [.dot] start r₁
  let ⟨region, r₃, h₃⟩ ← name eof r₂
  let ⟨_, r₄, h₄⟩ ← expect eof [.parenOpen, .parenClose, .defines] start r₃
  let ⟨(source, stop), rest, h⟩ ← body eof r₄
  return ⟨⟨template, region, source, ⟨start, stop⟩⟩, rest, by omega⟩

/-- Reads declarations up to the end of the file. A template's declaration begins with its name, that of
a region body with an at sign. -/
def declarations (ts : List Lexeme) : Except SyntaxError (List Declaration) :=
  match ts with
  | [] => .ok []
  | ⟨.atSign, p⟩ :: r => do
    let ⟨d, rest, _⟩ ← regionDecl eof p.start r
    let more ← declarations rest
    return .region d :: more
  | ⟨.word n, p⟩ :: r => do
    let ⟨d, rest, _⟩ ← templateDecl eof p.start n r
    let more ← declarations rest
    return .template d :: more
  | r => .error (unexpected eof r)
termination_by ts.length
decreasing_by all_goals (simp; omega)

def delimiters (ts : List Lexeme) : Except SyntaxError (Parsed (Option Delimiters) ts) :=
  match ts with
  | ⟨.delimiters, p⟩ :: r => do
    let ⟨(start, _), r₁, h₁⟩ ← str eof r
    let ⟨_, r₂, h₂⟩ ← expect eof [.comma] p.stop r₁
    let ⟨(stop, last), rest, h⟩ ← str eof r₂
    match start.toList, stop.toList with
    | [a], [b] => return ⟨some ⟨a, b⟩, rest, by simp; omega⟩
    | _, _ => .error ⟨⟨p.start, last⟩, .delimiterLength⟩
  | r => .ok ⟨none, r, Nat.le_refl _⟩

/-- The declarations of a list of tokens (`group_parser`). -/
def parseTokens (ts : List Lexeme) : Except SyntaxError GroupSource := do
  let ⟨found, rest, _⟩ ← delimiters eof ts
  let ds ← declarations eof rest
  return .ofDeclarations found ds

/-- The declarations of a group file (`parse_group`). -/
def parse (source : List Char) : Except SyntaxError GroupSource := do
  let tokens ← scan source
  parseTokens (endOfInput (byteLength source) tokens) tokens

end Stencil.GroupFile
