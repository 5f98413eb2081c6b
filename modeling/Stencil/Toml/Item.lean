import Stencil.Dictionary

/-!
# The contents of a TOML document

A document is a table of items. Tables come about in three ways, and what may be added to a table later
depends on the way: `Origin`. The functions below add to a table along a path and answer nothing where
the rules forbid it.
-/

namespace Stencil.Toml

/-- How a table came about. -/
inductive Origin where
  | header
  /-- By the header of a table inside it. -/
  | implied
  | dotted
deriving DecidableEq, Repr

/-- A value, or a part of the document that can still grow. -/
inductive Item where
  | str (s : String)
  | integer (n : Int)
  /-- A floating-point number, by its numeral. -/
  | float (numeral : String)
  | boolean (b : Bool)
  | dateTime
  | array (items : List Item)
  /-- A table in braces: nothing is added to it. -/
  | braced (entries : List (String × Item))
  | table (origin : Origin) (entries : List (String × Item))
  /-- The tables of an array header, the last one first. -/
  | tables (elements : List (List (String × Item)))

abbrev Entries := List (String × Item)

/-- Changes the table at the end of a path by `act`, which is told how that table came about. Tables
that the path lacks are made, with the origin `made`. Through an array of tables the path leads into its
last one. A dotted key never enters a table that has a header. -/
def descend (made : Origin) (act : Origin → Entries → Option Entries) :
    (path : List String) → Origin → Entries → Option Entries
  | [], origin, entries => act origin entries
  | key :: path, _, entries =>
    match entries.lookup key with
    | none => do
      let inner ← descend made act path made []
      return Dictionary.insert key (.table made inner) entries
    | some (.table origin inner) =>
      if made = .dotted ∧ origin = .header then none
      else do
        let inner ← descend made act path origin inner
        return Dictionary.insert key (.table origin inner) entries
    | some (.tables (last :: before)) => do
      let last ← descend made act path .header last
      return Dictionary.insert key (.tables (last :: before)) entries
    | some _ => none

/-- A key, perhaps dotted: the way to a table and the name in it. -/
structure Key where
  path : List String
  name : String
deriving DecidableEq, Repr

/-- Binds a key of the table with the given entries. A name is bound once, and dotted keys lead only
into tables that other dotted keys have made. -/
def bind (entries : Entries) (key : Key) (item : Item) : Option Entries :=
  descend .dotted (fun origin inner =>
    if (origin = .dotted ↔ key.path = []) ∨ Dictionary.contains key.name inner then none
    else some (Dictionary.insert key.name item inner)) key.path .header entries

def bindAll (entries : Entries) (bindings : List (Key × Item)) : Option Entries :=
  bindings.foldlM (fun es (key, item) => bind es key item) entries

/-- A header with the bindings after it. -/
structure Section where
  /-- Whether the header adds a table to an array. -/
  isElement : Bool
  key : Key
  bindings : List (Key × Item)

/-- Adds a section to a document. The header of a table may follow those of the tables inside it, but no
table has two headers. -/
def addSection (document : Entries) (s : Section) : Option Entries :=
  descend .implied (fun _ entries =>
    match s.isElement, entries.lookup s.key.name with
    | false, none => do
      let inner ← bindAll [] s.bindings
      return Dictionary.insert s.key.name (.table .header inner) entries
    | false, some (.table .implied inner) => do
      let inner ← bindAll inner s.bindings
      return Dictionary.insert s.key.name (.table .header inner) entries
    | true, none => do
      let inner ← bindAll [] s.bindings
      return Dictionary.insert s.key.name (.tables [inner]) entries
    | true, some (.tables elements) => do
      let inner ← bindAll [] s.bindings
      return Dictionary.insert s.key.name (.tables (inner :: elements)) entries
    | _, _ => none) s.key.path .header document

end Stencil.Toml
