import Stencil.Dictionary
import Stencil.Error

/-!
# Files and directories

A file tree is what templates are loaded from: files and directories under a root, each found by the names
on the way to it. A path is a text that leads from the root to a place, part by part; one that begins with a
slash starts above the root. Every part needs a directory to start from, the parts that stay there or lead
back up included, so a path that goes on after a file leads nowhere.
-/

namespace Stencil

/-- What stands at the end of a way. -/
inductive FileEntry where
  | file (content : ByteArray)
  | directory

/-- Files and directories under a root, by the names on the way to them. The root itself has no entry. -/
structure FileTree where
  /-- The name of the root in messages. -/
  root : String
  /-- The bytes of the path to the root, which messages may abbreviate. -/
  rootSize : Nat := root.utf8ByteSize
  entries : List (List String × FileEntry) := []
  distinct : (entries.map Prod.fst).Nodup := by simp

/-- Where a path leads. -/
inductive Place where
  | file (content : ByteArray)
  | directory (way : List String)
  /-- Above the root. The tree holds nothing of what is there. -/
  | above

namespace FileTree

/-! ## Paths -/

/-- The parts of a path, between its slashes. -/
def parts (path : String) : List String :=
  (path.toList.splitOn '/').map String.ofList

/-- Whether a part of a path leads to where it starts. -/
def stays (part : String) : Bool :=
  part == "" || part == "."

/-- The part of a path that leads back up. -/
def up : String := ".."

/-- The bytes that a name can have. -/
def nameLimit : Nat := 255

/-- The bytes that a whole path can have, that of the root included. -/
def pathLimit : Nat := 4095

def isAbsolute (path : String) : Bool :=
  path.startsWith "/"

def display (t : FileTree) (path : String) : String :=
  if isAbsolute path then path
  else if path.isEmpty then t.root
  else t.root ++ "/" ++ path

def pathSize (t : FileTree) (path : String) : Nat :=
  if isAbsolute path then path.utf8ByteSize
  else if path.isEmpty then t.rootSize
  else t.rootSize + 1 + path.utf8ByteSize

/-- The path of a name inside a directory. -/
def join (directory name : String) : String :=
  if directory.isEmpty || directory.endsWith "/" then directory ++ name else directory ++ "/" ++ name

/-! ## Making a tree -/

/-- Puts an entry at the end of a way, in place of the one that was there. -/
def put (t : FileTree) (way : List String) (entry : FileEntry) : FileTree where
  root := t.root
  rootSize := t.rootSize
  entries := Dictionary.insert way entry t.entries
  distinct := Dictionary.nodup_keys_insert way entry t.distinct

theorem lookup_put_self (t : FileTree) (way : List String) (entry : FileEntry) :
    (t.put way entry).entries.lookup way = some entry :=
  Dictionary.lookup_insert_self way entry t.entries

theorem lookup_put_of_ne {t : FileTree} {way other : List String} (h : other ≠ way) (entry : FileEntry) :
    (t.put way entry).entries.lookup other = t.entries.lookup other :=
  Dictionary.lookup_insert_of_ne h entry t.entries

/-- Makes a directory, unless there is an entry. -/
def makeDirectory (t : FileTree) (way : List String) : FileTree :=
  if Dictionary.contains way t.entries then t else t.put way .directory

/-- Writes a file or directory, and makes the directories that its path goes through. -/
def write (t : FileTree) (path : String) (entry : FileEntry) : FileTree :=
  let (made, way) := (parts path).foldl (fun (made, way) part =>
    if stays part then (made, way)
    else if part == up then (made, way.dropLast)
    else (made.makeDirectory (way ++ [part]), way ++ [part])) (t, [])
  made.put way entry

/-! ## Reading from a tree -/

def follow (t : FileTree) : Place → String → Except ReadFault Place
  | .file _, _ => .error .insideFile
  | .above, part =>
    if stays part || part == up then .ok .above
    else if nameLimit < part.utf8ByteSize then .error .tooLong
    else .error .notFound
  | .directory way, part =>
    if stays part then .ok (.directory way)
    else if part == up then .ok (if way.isEmpty then .above else .directory way.dropLast)
    else if nameLimit < part.utf8ByteSize then .error .tooLong
    else
      match t.entries.lookup (way ++ [part]) with
      | some (.file content) => .ok (.file content)
      | some .directory => .ok (.directory (way ++ [part]))
      | none => .error .notFound

def resolve (t : FileTree) (path : String) : Except ReadFault Place :=
  if path.contains '\x00' then .error .zeroCharacter
  else if pathLimit < t.pathSize path then .error .tooLong
  else (parts path).foldlM t.follow (if isAbsolute path then .above else .directory [])

def read (t : FileTree) (path : String) : Except ReadFault String := do
  match ← t.resolve path with
  | .file content =>
    match String.fromUTF8? content with
    | some text => return text
    | none => throw .notUtf8
  | .directory _ | .above => throw .isDirectory

/-- The names of the files directly inside a directory, sorted; a file has no files inside. -/
def filesIn? (t : FileTree) : Place → Option (List String)
  | .file _ => none
  | .above => some []
  | .directory way =>
    let found := t.entries.filterMap fun (other, entry) =>
      match entry, other.getLast? with
      | .file _, some name => if other.dropLast = way then some name else none
      | _, _ => none
    some (found.mergeSort fun a b => !decide (b < a))

/-- Splits the name of a file at its last period into stem and extension. A period at the beginning does
not count. -/
def splitExtension (name : String) : String × Option String :=
  let cs := name.toList.reverse
  match cs.dropWhile (· != '.') with
  | '.' :: stem =>
    if stem.isEmpty then (name, none)
    else (String.ofList stem.reverse, some (String.ofList (cs.takeWhile (· != '.')).reverse))
  | _ => (name, none)

end FileTree

end Stencil
