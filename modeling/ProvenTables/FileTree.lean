import ProvenTables.Storage.Directory
import ProvenTables.Text.Blank

/-!
# File trees

The files and folders that a program sees, and the way a path leads through them. A data directory
is a folder of a tree.
-/

namespace ProvenTables

/-- The names of the folders on the way from the root to a file or folder, and its own name. -/
abbrev Place := List String

/-- The absolute path of a place. -/
def Place.path (p : Place) : String := String.join (p.map ("/" ++ ·))

/-- What a file system holds, with the path of each entry as its key. -/
structure FileTree where
  entries : SortedMap DiskEntry
  deriving DecidableEq

namespace FileTree

/-- The file system without entries. -/
def empty : FileTree := ⟨.empty⟩

/-- Without other information a file system is empty. -/
instance : Inhabited FileTree := ⟨empty⟩

/-- The entry at a place, if there is one. -/
def get? (t : FileTree) (p : Place) : Option DiskEntry := t.entries.get? p.path

/-- The file system with an entry put at a place. -/
def putEntry (t : FileTree) (p : Place) (e : DiskEntry) : FileTree :=
  ⟨t.entries.insert p.path e⟩

/-- Makes the folders of a place that are missing. -/
def putFolder (t : FileTree) (p : Place) : FileTree :=
  (List.range p.length).foldl (fun t n => t.putEntry (p.take (n + 1)) .folder) t

/-- Writes a file in a place whose folders are made if they are missing. -/
def putFile (t : FileTree) (p : Place) (content : String) : FileTree :=
  (t.putFolder p.dropLast).putEntry p (.file content)

/-! ## Paths -/

/-- The greatest number of bytes of a path. -/
def maxPathBytes : Nat := 4095

/-- A path can be given to the system if it is short enough and has no NUL. -/
def isPath (path : String) : Bool :=
  path.utf8ByteSize ≤ maxPathBytes && !path.toList.contains '\x00'

/-- A step that is joined to a folder with one slash between them. -/
def joinPath (folder step : String) : String :=
  if folder.isEmpty || folder.endsWith "/" then folder ++ step else folder ++ "/" ++ step

/-- The steps of a path, which are empty where two slashes meet. -/
def stepsOf (path : String) : List String :=
  (Text.splitBy (· == '/') path.toList).map String.ofList

/-- Where the first step of a path starts. -/
def startOf (workingFolder : Place) (path : String) : Place :=
  if path.startsWith "/" then [] else workingFolder

/-- Where steps lead from a folder. -/
def follow? (t : FileTree) : Place → List String → Option Place
  | p, [] => some p
  | p, step :: rest =>
    if step = "" ∨ step = "." then t.follow? p rest
    else if step = ".." then t.follow? p.dropLast rest
    else
      match t.get? (p ++ [step]) with
      | some .folder => t.follow? (p ++ [step]) rest
      | some (.file _) => if rest.isEmpty then some (p ++ [step]) else none
      | none => none

/-- Where a path leads. -/
def find? (t : FileTree) (workingFolder : Place) (path : String) : Option Place :=
  if isPath path then t.follow? (startOf workingFolder path) (stepsOf path) else none

/-- The content of the file that a path leads to, if it leads to one. -/
def read? (t : FileTree) (workingFolder : Place) (path : String) : Option String :=
  match (t.find? workingFolder path).bind t.get? with
  | some (.file content) => some content
  | _ => none

/-- A name can be the name of an entry if it has at most 255 bytes. -/
def isName (name : String) : Bool := name.utf8ByteSize ≤ 255

/-- Follows steps from a folder and makes the folders that are missing. -/
def makeFrom : Place → List String → FileTree → Option Place × FileTree
  | p, [], t => (some p, t)
  | p, step :: rest, t =>
    if step = "" ∨ step = "." then makeFrom p rest t
    else if step = ".." then makeFrom p.dropLast rest t
    else if !isName step then (none, t)
    else
      match t.get? (p ++ [step]) with
      | some .folder => makeFrom (p ++ [step]) rest t
      | some (.file _) => (none, t)
      | none => makeFrom (p ++ [step]) rest (t.putEntry (p ++ [step]) .folder)

/-! ## Data directories -/

/-- The entries that are directly in a folder, by their names. -/
def entriesIn (t : FileTree) (p : Place) : SortedMap DiskEntry :=
  .ofList (t.entries.entries.filterMap fun e => do
    let rest ← Text.after? (p.path ++ "/").toList e.1.toList
    if rest.contains '/' then none else some (String.ofList rest, e.2))

/-- The data directory in a folder, if it is one. -/
def disk? (t : FileTree) (p : Place) : Option Disk :=
  let objects := t.entriesIn (p ++ [Disk.objectsName])
  match t.get? (p ++ [Disk.registryName]) with
  | none => some ⟨objects, none⟩
  | some (.file content) => some ⟨objects, some content⟩
  | some .folder => none

/-- The file system with the objects and the registry of a store in a folder. -/
def putDisk (t : FileTree) (p : Place) (d : Disk) : FileTree :=
  let t := d.objects.entries.foldl
    (fun t e => t.putEntry (p ++ [Disk.objectsName, e.1]) e.2) t
  match d.registry with
  | some content => t.putEntry (p ++ [Disk.registryName]) (.file content)
  | none => t

/-- Opens the data directory to which a path leads; a new one is made if there is none, but for a
path that is too long to reach its objects. -/
def openDisk (t : FileTree) (workingFolder : Place) (path : String) :
    Option (Place × Disk) × FileTree :=
  if isPath (joinPath path Disk.objectsName) then
    match makeFrom (startOf workingFolder path) (stepsOf path) t with
    | (some p, t) =>
      match makeFrom p [Disk.objectsName] t with
      | (some _, t) => ((t.disk? p).map (p, ·), t)
      | (none, t) => (none, t)
    | (none, t) => (none, t)
  else (none, t)

end FileTree

end ProvenTables
