import Stencil.Toml.Item
import Stencil.Toml.Numeral
import Stencil.Toml.Text

/-!
# Reading TOML documents

`parse?` reads a document: bindings, then sections that each begin with a header. Arrays and tables in
braces nest to a fixed depth, and a key has a fixed number of parts; a document that goes beyond is
refused like a malformed one.
-/

namespace Stencil.Toml

/-- The bound on the nesting of values and on the parts of a key, which both have to stay below it. -/
def depthLimit : Nat := 80

def key : Reader Key := fun cs => do
  let ⟨parts, rest, h⟩ ← keyParts cs
  if parts.length < depthLimit then
    return ⟨⟨parts.dropLast, parts.getLastD ""⟩, rest, h⟩
  else none

/-! ## Values -/

/-- Reads the elements of an array, from what follows its bracket or a comma on, up to the closing
bracket. A comma may stand after the last element. -/
def elements (item : Reader Item) (cs : List Char) : Option (Parsed (List Item) cs) := do
  let ⟨_, r₁, h₁⟩ := filler cs
  if r₁.head? = some ']' then
    return (Parsed.mk [] r₁.tail (List.tail_sublist r₁).length_le).after h₁
  else
    let ⟨x, r₂, h₂⟩ ← item r₁
    let ⟨_, r₃, h₃⟩ := filler r₂
    have h : r₃.length ≤ cs.length := Nat.le_trans h₃ (Nat.le_trans h₂ h₁)
    match hr : r₃ with
    | ']' :: r₄ => return (Parsed.here [x] r₄).after (Nat.le_of_lt (length_lt_of_eq_cons hr h))
    | ',' :: r₄ =>
      have := length_lt_of_eq_cons hr h
      let more ← elements item r₄
      return (more.map (x :: ·)).after (Nat.le_of_lt this)
    | _ => none
termination_by cs.length

def binding (item : Reader Item) : Reader (Key × Item) := fun cs => do
  let ⟨k, r₁, h₁⟩ ← key cs
  match r₁, h₁ with
  | '=' :: r₂, h₁ =>
    let ⟨_, r₃, h₃⟩ := spaces r₂
    let ⟨x, r₄, h₄⟩ ← item r₃
    let ⟨_, r₅, h₅⟩ := spaces r₄
    return (((((Parsed.here (k, x) r₅).after h₅).after h₄).after h₃).behind '=').after h₁
  | _, _ => none

def bindings (item : Reader Item) (cs : List Char) : Option (Parsed (List (Key × Item)) cs) := do
  let ⟨x, r₁, h₁⟩ ← binding item cs
  match hr : r₁ with
  | '\x7d' :: r₂ => return (Parsed.here [x] r₂).after (Nat.le_of_lt (length_lt_of_eq_cons hr h₁))
  | ',' :: r₂ =>
    have := length_lt_of_eq_cons hr h₁
    let more ← bindings item r₂
    return (more.map (x :: ·)).after (Nat.le_of_lt this)
  | _ => none
termination_by cs.length

def bracedTable (item : Reader Item) : Reader Item := fun cs => do
  let ⟨_, r₁, h₁⟩ := spaces cs
  match r₁, h₁ with
  | '\x7d' :: r₂, h₁ => return ((Parsed.here (.braced []) r₂).behind '\x7d').after h₁
  | r₁, h₁ =>
    let ⟨bs, rest, h⟩ ← bindings item r₁
    let entries ← bindAll [] bs
    return (Parsed.mk (.braced entries) rest h).after h₁

/-- Reads a value that holds no other: a string, a truth value, a number, a date or a time. -/
def scalar (cs : List Char) : Option (Parsed Item cs) :=
  match cs with
  | '"' :: '"' :: '"' :: r => do
    let s ← block '"' true r
    return (((s.map text).behind '"').behind '"').behind '"'
  | '"' :: r => do
    let s ← basicString r
    return (s.map text).behind '"'
  | '\'' :: '\'' :: '\'' :: r => do
    let s ← block '\'' false r
    return (((s.map text).behind '\'').behind '\'').behind '\''
  | '\'' :: r => do
    let s ← literalString r
    return (s.map text).behind '\''
  | cs => do
    let run := (spanNumeral cs).1
    let item ←
      if run == "true".toList then some (.boolean true)
      else if run == "false".toList then some (.boolean false)
      else numeral? run
    return ⟨item, (spanNumeral cs).2, length_spanNumeral_le cs⟩
where
  text (s : List Char) : Item :=
    .str (String.ofList s)

/-- Reads a value; `levels` is how deep arrays and tables in it may nest. -/
def value : (levels : Nat) → (cs : List Char) → Option (Parsed Item cs)
  | 0, '[' :: _ => none
  | 0, '\x7b' :: _ => none
  | levels + 1, '[' :: r => do
    let xs ← elements (value levels) r
    return (xs.map .array).behind '['
  | levels + 1, '\x7b' :: r => do
    let x ← bracedTable (value levels) r
    return x.behind '\x7b'
  | _, cs => scalar cs

/-! ## Documents -/

/-- Reads what may stand between the last token of a line and its end. -/
def lineRest : Reader Unit := fun cs => do
  let ⟨_, r₁, h₁⟩ := spaces cs
  let ⟨_, r₂, h₂⟩ := comment r₁
  let stop ← lineEnd r₂
  return (stop.after h₂).after h₁

/-- Reads the brackets that close a header: two for the table of an array, otherwise one. -/
def closingBrackets (isElement : Bool) (cs : List Char) : Option (Parsed Unit cs) :=
  match isElement, cs with
  | true, ']' :: ']' :: r => some (.behind ']' (.behind ']' (.here () r)))
  | false, ']' :: r => some (.behind ']' (.here () r))
  | _, _ => none

def headerRest (isElement : Bool) : Reader Section := fun cs => do
  let ⟨k, r₁, h₁⟩ ← key cs
  let ⟨_, r₂, h₂⟩ ← closingBrackets isElement r₁
  let stop ← lineRest r₂
  return ((stop.map fun _ => ⟨isElement, k, []⟩).after h₂).after h₁

def header (cs : List Char) : Option (Parsed Section cs) :=
  match cs with
  | '[' :: r => do
    let s ← headerRest true r
    return s.behind '['
  | r => headerRest false r

/-- The bindings in front of the first header, and the sections. -/
structure Outline where
  bindings : List (Key × Item)
  sections : List Section

def outline (cs : List Char) : Option Outline := do
  let ⟨_, r, h⟩ := filler cs
  match hr : r with
  | [] => return ⟨[], []⟩
  | '[' :: r₁ =>
    let ⟨s, rest, h₁⟩ ← header r₁
    have : rest.length < cs.length := Nat.lt_of_le_of_lt h₁ (length_lt_of_eq_cons hr h)
    let more ← outline rest
    return ⟨[], { s with bindings := more.bindings } :: more.sections⟩
  | c :: r₁ =>
    let ⟨b, r₂, _⟩ ← binding (value (depthLimit - 1)) (c :: r₁)
    let ⟨_, rest, _⟩ ← lineRest r₂
    if _h : rest.length < cs.length then
      let more ← outline rest
      return { more with bindings := b :: more.bindings }
    else none
termination_by cs.length

/-- The table that a document is. -/
def parse? (cs : List Char) : Option Entries := do
  let cs := match cs with
    | '\ufeff' :: rest => rest
    | cs => cs
  let o ← outline cs
  let root ← bindAll [] o.bindings
  o.sections.foldlM addSection root

end Stencil.Toml
