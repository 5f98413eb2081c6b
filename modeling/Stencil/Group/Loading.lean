import Stencil.Group.Basic
import Stencil.Group.FileTree
import Stencil.GroupFile.Parse

/-!
# Loading templates into a group

Templates are declared one by one, from group files, from directories of files or directly. A load that
fails keeps what it had declared before. Region bodies come after all templates of a load, so that they
may name any of them.
-/

namespace Stencil

open Template (Delimiters Parameter)
open GroupFile (GroupSource RegionDecl)

/-- A change of a group that may stop with an error; the group stays as it was changed up to there. -/
abbrev Loading := ExceptT Error (StateM Group)

namespace Loading

def group : Loading Group :=
  get

/-- Declares a template (`insert`). No two templates have the same name. -/
def declare (name : String) (d : Definition) : Loading Unit := do
  let g ← group
  if g.contains name then throw (.duplicateTemplate name)
  set { g with templates := g.templates ++ [(name, d)] }

/-- Declares a template under the group's delimiters (`define_template`). -/
def define (name : String) (params : List Parameter) (body : String) : Loading Unit := do
  declare name { params, body, delimiters := (← group).config.delimiters }

/-- Replaces a region of a template (`install_region`). The template has to have the region, and the body to be
well-formed; it is read with the given delimiters, or else those of the template. -/
def replaceRegion (template region body : String) (delimiters : Option Delimiters) : Loading Unit := do
  let g ← group
  let owner ← g.compiled template
  unless owner.regions.contains region do
    throw (.noSuchRegion template region)
  let replacement ← Template.compile (template ++ "." ++ region) body none
    (delimiters.getD owner.delimiters)
  set { g with overrides := Dictionary.insert (template, region) replacement g.overrides }

/-- Declares the templates of a group source; the answer is its region bodies with their delimiters (`ingest`). -/
def declareAll (source : GroupSource) : Loading (List (Delimiters × RegionDecl)) := do
  let delimiters := source.delimiters.getD (← group).config.delimiters
  source.templates.forM fun t =>
    declare t.name { params := t.params, body := t.body, delimiters }
  return source.regions.map fun r => (delimiters, r)

/-- Replaces regions, then ends a load (`finish_load`): in an eager group every declared template is well-formed. -/
def finish (regions : List (Delimiters × RegionDecl)) : Loading Unit := do
  regions.forM fun (delimiters, r) =>
    replaceRegion r.template r.region r.body (some delimiters)
  let g ← group
  if g.config.eager then g.compileAll

/-- The group source of a text; `label` names it in messages. -/
def parseSource (label source : String) : Except Error GroupSource :=
  (GroupFile.parse source.toList).mapError (.malformed label)

/-- The group source of a file (`read_group_file`). -/
def readSource (files : FileTree) (path : String) : Except Error GroupSource :=
  match files.read path with
  | .ok text => parseSource (files.display path) text
  | .error fault => .error (.unreadable (files.display path) fault)

/-- Loads a text (`load_source`). -/
def source (text : String) : Loading Unit := do
  finish (← declareAll (← parseSource "<group>" text))

/-- Loads a file (`load_file`). -/
def file (files : FileTree) (path : String) : Loading Unit := do
  finish (← declareAll (← readSource files path))

/-- The extension of files that hold a whole group. -/
def groupExtension : String := "stg"

/-- Declares the templates of a file inside a directory. The file of one template declares a template of
its own name; files of other kinds are passed over. -/
def directoryFile (files : FileTree) (directory name : String) :
    Loading (List (Delimiters × RegionDecl)) := do
  let path := FileTree.join directory name
  let (stem, extension) := FileTree.splitExtension name
  if extension = some (← group).config.extension then
    let parsed ← readSource files path
    unless parsed.templates.any (·.name == stem) do
      throw (.unloadable (files.display path) (.declarationMissing stem))
    declareAll parsed
  else if extension = some groupExtension then
    declareAll (← readSource files path)
  else return []

/-- Loads the files directly inside a directory, in the order of their names (`load_dir`). -/
def directory (files : FileTree) (path : String) : Loading Unit := do
  match files.resolve path with
  | .error fault => throw (.unreadable (files.display path) fault)
  | .ok place =>
    match files.filesIn? place with
    | none => throw (.unloadable (files.display path) .notADirectory)
    | some names =>
      let regions ← names.mapM fun name => directoryFile files path name
      finish regions.flatten

/-- The group after a change, and the error it stopped with. -/
def apply (change : Loading Unit) (g : Group) : Group × Option Error :=
  match change.run.run g with
  | (.ok (), g') => (g', none)
  | (.error e, g') => (g', some e)

end Loading

end Stencil
