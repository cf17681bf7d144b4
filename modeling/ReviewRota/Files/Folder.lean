import ReviewRota.Catalog.Migration
import ReviewRota.Config.File
import ReviewRota.Files.Location

/-!
# Folders

The files that the program finds and leaves behind.  A file is known by its bytes, a database by its
catalog.
-/

namespace ReviewRota

inductive Node where
  | folder
  | file (content : List UInt8)
  | database (catalog : Catalog)
  deriving DecidableEq, Repr

abbrev FilePath := List String

def FilePath.ofText (s : String) : FilePath :=
  let names := ((s.splitToList (· = '/')).filter fun name => name ≠ "" ∧ name ≠ ".")
  if s.startsWith "/" then "/" :: names else names

def FilePath.way (path : FilePath) : List FilePath :=
  (List.range (path.length + 1)).map fun n => List.take n path

structure Folder where
  nodes : List (FilePath × Node) := []
  deriving DecidableEq, Repr

instance : EmptyCollection Folder := ⟨{}⟩

namespace Folder

def node? (f : Folder) (path : FilePath) : Option Node :=
  if path = [] ∨ path = ["/"] then some .folder else f.nodes.lookup path

def isFolder (f : Folder) (path : FilePath) : Bool := f.node? path = some .folder

def put (f : Folder) (path : FilePath) (node : Node) : Folder where
  nodes := f.nodes.filter (fun (p, _) => p ≠ path) ++ [(path, node)]

def isBlocked (f : Folder) (path : FilePath) : Bool :=
  (FilePath.way path.dropLast).any fun p => (f.node? p).any (· ≠ .folder)

def makeFolders (f : Folder) (path : FilePath) : Except String Folder :=
  if f.isBlocked path then .error "Not a directory (os error 20)"
  else
    match f.node? path with
    | some .folder => .ok f
    | some _ => .error "File exists (os error 17)"
    | none =>
        .ok ((FilePath.way path).foldl
          (fun f p => if f.isFolder p then f else f.put p .folder) f)

def write (f : Folder) (path : FilePath) (node : Node) : Folder :=
  let f := (FilePath.way path.dropLast).foldl
    (fun f p => if f.isFolder p then f else f.put p .folder) f
  f.put path node

def fileState (f : Folder) (path : String) : FileState :=
  let names := FilePath.ofText path
  if f.isBlocked names then .unreadable "Not a directory (os error 20)"
  else
    match f.node? names with
    | none => .missing
    | some .folder => .directory
    | some (.file content) => .content content
    | some (.database _) => .content [0xff]

def names (f : Folder) : List String :=
  (f.nodes.filterMap fun (path, _) => match path with | [name] => some name | _ => none).mergeSort
    fun a b => a ≤ b

end Folder

def StorageFault.unopened : StorageFault := .refused 14 "unable to open database file"

def StorageFault.noDatabase : StorageFault := .refused 26 "file is not a database"

namespace Folder

/-- The catalog at a location, which is empty if there is no file yet. -/
def catalog (f : Folder) : Location → Except StorageFault Catalog
  | .memory => .ok ∅
  | .file path mustExist =>
      let names := FilePath.ofText path
      match f.node? names with
      | some (.database catalog) => .ok catalog
      | some (.file content) => if content.isEmpty then .ok ∅ else .error .noDatabase
      | some .folder => .error .unopened
      | none =>
          if mustExist || !f.isFolder names.dropLast then .error .unopened else .ok ∅

def keep (f : Folder) (c : Catalog) : Location → Folder
  | .memory => f
  | .file path _ => f.put (FilePath.ofText path) (.database c)

structure Opened where
  result : Except OpenFault Unit
  folder : Folder
  events : List Event

/-- Opens the database at a path and brings it up to date.  Folders on the way to it are made. -/
def openDatabase (refusals : Refusals) (f : Folder) (path : String) : Opened :=
  match f.makeFolders (FilePath.ofText path).dropLast with
  | .error reason => ⟨.error (.directory reason), f, []⟩
  | .ok f =>
      match Location.ofPath path with
      | .error fault => ⟨.error (.storage fault), f, []⟩
      | .ok location =>
          match f.catalog location with
          | .error fault => ⟨.error (.storage fault), f, []⟩
          | .ok c =>
              let migrated := c.migrate refusals Migration.all
              ⟨migrated.result.mapError .storage, f.keep migrated.catalog location,
                migrated.events⟩

end Folder

end ReviewRota
