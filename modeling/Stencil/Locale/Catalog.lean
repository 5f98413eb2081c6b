import Stencil.Dictionary
import Stencil.Error
import Stencil.Locale.Basic
import Stencil.Text.Blank
import Stencil.Text.Quoted
import Stencil.Toml.Document

/-!
# Catalogs of locales

A catalog finds a locale by its tag. Tags that differ only in ASCII case, in surrounding blanks or in
underscores for hyphens are the same tag. Where a tag has no locale, its language has: the part in front
of the first hyphen.
-/

namespace Stencil

inductive Separator where
  | decimal
  | grouping
deriving DecidableEq, Repr

def Separator.name : Separator → String
  | decimal => "decimal"
  | grouping => "grouping"

/-- Why a catalog was refused. -/
inductive CatalogFault where
  | unreadable (fault : ReadFault)
  /-- The source is not TOML, or not that of a catalog. -/
  | malformed
  | badSeparator (tag : String) (separator : Separator) (text : String)
deriving DecidableEq, Repr

def CatalogFault.message : CatalogFault → String
  | unreadable fault => s!"Failed to read locale catalog: {fault.message}"
  | malformed => "Failed to parse locale catalog TOML"
  | badSeparator tag separator text =>
    s!"locale '{tag}': {separator.name} separator must be a single character, got {quoted text}"

/-- The one spelling of a tag by which it is looked up (`normalize`). -/
def normalizeTag (tag : String) : String :=
  String.ofList ((trim tag.toList).map fun c => (if c == '_' then '-' else c).toLower)

/-- The language of a tag in its one spelling. -/
def languageOf (tag : String) : String :=
  String.ofList (tag.toList.takeWhile (· != '-'))

/-- A locale as the source of a catalog describes it (`TomlLocale`). -/
structure CatalogEntry where
  decimal : String
  grouping : String := ""
  groupSize : Option Nat := none
deriving DecidableEq, Repr

/-- Locales by the one spelling of their tags (`LocaleCatalog`). -/
structure Catalog where
  locales : List (String × Locale) := []
deriving DecidableEq, Repr

namespace CatalogEntry

/-- A separator: a single character, or none where the text is empty. -/
def separator (tag : String) (kind : Separator) (text : String) :
    Except CatalogFault (Option Char) :=
  match text.toList with
  | [] => .ok none
  | [c] => .ok (some c)
  | _ => .error (.badSeparator tag kind text)

/-- The locale that an entry describes. A separator in front of the fraction there must be; a group has
at least one digit. -/
def toLocale (tag : String) (e : CatalogEntry) : Except CatalogFault Locale := do
  let some decimal ← separator tag .decimal e.decimal | .error (.badSeparator tag .decimal "")
  let grouping ← separator tag .grouping e.grouping
  return {
    tag := normalizeTag tag
    decimal, grouping
    groupSize := max (e.groupSize.getD 3) 1
    groupSize_pos := by omega }

/-- A size of groups in a document: a number that is not negative. -/
def size? : Toml.Item → Option Nat
  | .integer n => if 0 ≤ n then some n.toNat else none
  | _ => none

def text? : Toml.Item → Option String
  | .str s => some s
  | _ => none

/-- The entry that a table describes; entries of other names do not count. -/
def ofTable? (t : Toml.Entries) : Option CatalogEntry := do
  let decimal ← text? (← t.lookup "decimal")
  let grouping ← match t.lookup "grouping" with
    | none => some ""
    | some item => text? item
  let groupSize ← match t.lookup "grouping_size" with
    | none => some none
    | some item => (size? item).map some
  return { decimal, grouping, groupSize }

/-- The entry that an item describes: a table, or an array of the three parts in order. -/
def ofItem? : Toml.Item → Option CatalogEntry
  | .table _ t => ofTable? t
  | .braced t => ofTable? t
  | .array (decimal :: grouping :: size :: _) => do
    return ⟨← text? decimal, ← text? grouping, some (← size? size)⟩
  | _ => none

end CatalogEntry

namespace Catalog

/-- The locale of a tag or else of its language. -/
def resolve (c : Catalog) (tag : String) : Option Locale :=
  let key := normalizeTag tag
  c.locales.lookup key <|> c.locales.lookup (languageOf key)

/-- Adds a locale under its own tag. -/
def insert (c : Catalog) (l : Locale) : Catalog :=
  ⟨Dictionary.insert (normalizeTag l.tag) l c.locales⟩

/-- The catalog of the given entries. -/
def ofEntries (entries : List (String × CatalogEntry)) : Except CatalogFault Catalog :=
  entries.foldlM (fun c (tag, e) => do return c.insert (← e.toLocale tag)) {}

/-- The entries that a document lists in its table `locales`. -/
def entries? (document : Toml.Entries) : Option (List (String × CatalogEntry)) :=
  let table := match document.lookup "locales" with
    | none => some []
    | some (.table _ t) => some t
    | some (.braced t) => some t
    | some _ => none
  table.bind fun t => t.mapM fun (tag, item) => return (tag, ← CatalogEntry.ofItem? item)

/-- The catalog that a TOML source describes (`from_str`). -/
def ofSource (source : List Char) : Except CatalogFault Catalog :=
  match (Toml.parse? source).bind entries? with
  | some entries => ofEntries entries
  | none => .error .malformed

/-- The catalog that a file describes, given what reading the file gave (`from_file`). -/
def ofFile : Except ReadFault String → Except CatalogFault Catalog
  | .ok source => ofSource source.toList
  | .error fault => .error (.unreadable fault)

/-- The source of the locales that are always known (`DEFAULT_CATALOG`). -/
def builtinSource : String := r#"
[locales.en]
decimal = "."
grouping = ","

[locales.en-gb]
decimal = "."
grouping = ","

[locales.pl]
decimal = ","
grouping = " "

[locales.de]
decimal = ","
grouping = "."

[locales.de-ch]
decimal = "."
grouping = "'"

[locales.fr]
decimal = ","
grouping = " "

[locales.es]
decimal = ","
grouping = "."

[locales.it]
decimal = ","
grouping = "."

[locales.nl]
decimal = ","
grouping = "."

[locales.pt]
decimal = ","
grouping = " "

[locales.pt-br]
decimal = ","
grouping = "."

[locales.ru]
decimal = ","
grouping = " "

[locales.sv]
decimal = ","
grouping = " "

[locales.ja]
decimal = "."
grouping = ","

[locales.zh]
decimal = "."
grouping = ","
"#

/-- The locales that are always known. They are those of their source (`Catalog.ofSource_builtinSource`), read
beforehand. -/
def builtin : Catalog where
  locales :=
    [entry "en" '.' ',', entry "en-gb" '.' ',', entry "pl" ',' ' ', entry "de" ',' '.',
     entry "de-ch" '.' '\'', entry "fr" ',' ' ', entry "es" ',' '.', entry "it" ',' '.',
     entry "nl" ',' '.', entry "pt" ',' ' ', entry "pt-br" ',' '.', entry "ru" ',' ' ',
     entry "sv" ',' ' ', entry "ja" '.' ',', entry "zh" '.' ',']
where
  /-- A locale with groups of three, under its tag. -/
  entry (tag : String) (decimal grouping : Char) : String × Locale :=
    (tag, { Locale.root with tag, decimal, grouping := some grouping })

/-- The locale of a tag in the catalog, else among the builtin ones, else the root locale (`resolve_or_default`). -/
def resolveOrDefault (c : Catalog) (tag : String) : Locale :=
  (c.resolve tag <|> builtin.resolve tag).getD .root

end Catalog

def Locale.ofTag (tag : String) : Locale :=
  Catalog.builtin.resolveOrDefault tag

end Stencil
