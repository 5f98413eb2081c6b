import Mathlib.Data.List.Infix
import Stencil.GroupFile.Parse
import Stencil.Proofs.Text.Literal

/-!
# Printing group files

A group file is printed one declaration to a line, behind its delimiters if it has any. Strings are printed in
double quotes. So can be every body; one that a block can hold (`BodyForm.admits`) may instead be printed as a
block, with line breaks around it. What is printed is also listed as tokens.
-/

namespace Stencil.GroupFile

open Template (Delimiters Parameter)

/-! ## Well-formed declarations -/

/-- Whether the name can be written: a word, but not the keyword. -/
def isIdentifier (s : String) : Bool :=
  isWord s.toList && s != "delimiters"

inductive BodyForm where
  | quoted
  | block
deriving DecidableEq, Repr

/-- Whether a body can be printed in the form. A block would end at two closing brackets, and a carriage
return at its end would count for the line break behind it. -/
def BodyForm.admits : BodyForm → String → Bool
  | quoted, _ => true
  | block, s => !decide (['>', '>'] <:+: s.toList) && s.toList.getLast? != some '\r'

/-- Whether the template's declaration can be written. -/
def TemplateDecl.wellFormed (d : TemplateDecl) : Bool :=
  isIdentifier d.name && d.params.all (isIdentifier ·.name) && decide (d.params.map (·.name)).Nodup

def RegionDecl.wellFormed (d : RegionDecl) : Bool :=
  isIdentifier d.template && isIdentifier d.region

/-- Whether the declaration can be written, with its body in the form. -/
def Declaration.wellFormed (form : BodyForm) : Declaration → Bool
  | .template d => d.wellFormed && form.admits d.body
  | .region d => d.wellFormed && form.admits d.body

/-! ## Tokens -/

def BodyForm.token : BodyForm → String → Token
  | quoted, s => .str s
  | block, s => .block s

def parameterTokens (p : Parameter) : List Token :=
  match p.default? with
  | none => [.word p.name]
  | some s => [.word p.name, .equals, .str s]

/-- The tokens of the parameters after the first, with the closing parenthesis. -/
def furtherParameterTokens : List Parameter → List Token
  | [] => [.parenClose]
  | p :: ps => .comma :: (parameterTokens p ++ furtherParameterTokens ps)

def parametersTokens : List Parameter → List Token
  | [] => [.parenClose]
  | p :: ps => parameterTokens p ++ furtherParameterTokens ps

def Declaration.tokens (form : BodyForm) : Declaration → List Token
  | .template d => [.word d.name, .parenOpen] ++ parametersTokens d.params ++ [.defines, form.token d.body]
  | .region d =>
    [.atSign, .word d.template, .dot, .word d.region, .parenOpen, .parenClose, .defines, form.token d.body]

def delimiterTokens (d : Delimiters) : List Token :=
  [.delimiters, .str (String.ofList [d.start]), .comma, .str (String.ofList [d.stop])]

def tokens (found : Option Delimiters) (ds : List (BodyForm × Declaration)) : List Token :=
  found.elim [] delimiterTokens ++ ds.flatMap fun (form, d) => d.tokens form

/-! ## Text -/

/-- The text in double quotes. -/
def literal (cs : List Char) : List Char :=
  '"' :: (literalBody cs ++ ['"'])

def BodyForm.print : BodyForm → String → List Char
  | quoted, s => literal s.toList
  | block, s => ['<', '<', '\n'] ++ s.toList ++ ['\n', '>', '>']

def printParameter (p : Parameter) : List Char :=
  match p.default? with
  | none => p.name.toList
  | some s => p.name.toList ++ '=' :: literal s.toList

/-- The text of the parameters after the first, with the closing parenthesis. -/
def printFurtherParameters : List Parameter → List Char
  | [] => [')']
  | p :: ps => ',' :: ' ' :: (printParameter p ++ printFurtherParameters ps)

def printParameters : List Parameter → List Char
  | [] => [')']
  | p :: ps => printParameter p ++ printFurtherParameters ps

/-- The sign between a declaration's head and its body, with blanks around it. -/
def definesSign : List Char :=
  [' ', ':', ':', '=', ' ']

/-- The text of a declaration, with its body in the form. -/
def Declaration.print (form : BodyForm) : Declaration → List Char
  | .template d =>
    d.name.toList ++ '(' :: (printParameters d.params ++ definesSign ++ form.print d.body ++ ['\n'])
  | .region d =>
    '@' :: (d.template.toList ++ '.' :: (d.region.toList ++ ['(', ')'] ++ definesSign ++ form.print d.body ++
      ['\n']))

/-- The keyword that introduces the delimiters of a file. -/
def keyword : List Char :=
  "delimiters".toList

def delimiterLine (d : Delimiters) : List Char :=
  keyword ++ ' ' :: (literal [d.start] ++ [',', ' '] ++ literal [d.stop] ++ ['\n'])

/-- The text of a file: its delimiters, if it has any, and its declarations, each with its body in a form. -/
def print (found : Option Delimiters) (ds : List (BodyForm × Declaration)) : List Char :=
  found.elim [] delimiterLine ++ ds.flatMap fun (form, d) => d.print form

/-! ## Declarations without places -/

/-- The declaration without its place. -/
def TemplateDecl.erase (d : TemplateDecl) : TemplateDecl :=
  { d with span := ⟨0, 0⟩ }

def RegionDecl.erase (d : RegionDecl) : RegionDecl :=
  { d with span := ⟨0, 0⟩ }

def Declaration.erase : Declaration → Declaration
  | .template d => .template d.erase
  | .region d => .region d.erase

/-- What a file declares, without the places of its declarations. -/
def GroupSource.erase (g : GroupSource) : GroupSource :=
  { g with templates := g.templates.map TemplateDecl.erase, regions := g.regions.map RegionDecl.erase }

theorem GroupSource.erase_ofDeclarations (found : Option Delimiters) (ds : List Declaration) :
    (ofDeclarations found ds).erase = ofDeclarations found (ds.map Declaration.erase) := by
  rw [GroupSource.erase, ofDeclarations, ofDeclarations, List.map_filterMap, List.map_filterMap,
    List.filterMap_map, List.filterMap_map]
  congr 1
  · exact List.filterMap_congr fun d _ => by cases d <;> rfl
  · exact List.filterMap_congr fun d _ => by cases d <;> rfl

end Stencil.GroupFile
