import BenchStats.Files.Error
import BenchStats.Files.Path

/-!
# File trees

A file tree is what the commands see of a file system: directories, files with their bytes, and the
device that keeps nothing, each at a place that is given by the names on the way from the root. A
path is followed name by name, and everything it passes through has to be a directory.
-/

namespace BenchStats

inductive FileEntry where
  | directory
  | file (content : ByteArray)
  /-- A device that takes all bytes and keeps none. -/
  | sink

def FileEntry.isDirectory : FileEntry → Bool
  | .directory => true
  | _ => false

def FileEntry.isSink : FileEntry → Bool
  | .sink => true
  | _ => false

abbrev Place := List String

/-- Directories and files, and the place from which relative paths start. -/
structure FileTree where
  /-- All entries but the root. -/
  entries : List (Place × FileEntry)
  workingDirectory : Place

namespace FileTree

/-- What is at a place, if anything; the root is always there. -/
def lookup (tree : FileTree) (place : Place) : Option FileEntry :=
  if place.isEmpty then some .directory else tree.entries.lookup place

@[simp] theorem lookup_root (tree : FileTree) : tree.lookup [] = some .directory := rfl

/-- The tree with an entry at a place, in place of what was there. -/
def insert (tree : FileTree) (place : Place) (entry : FileEntry) : FileTree :=
  { tree with entries := (place, entry) :: tree.entries.filter (·.1 ≠ place) }

@[simp] theorem lookup_insert_self (tree : FileTree) {place : Place} (below : place ≠ [])
    (entry : FileEntry) : (tree.insert place entry).lookup place = some entry := by
  simp [lookup, insert, below]

@[simp] theorem lookup_insert_of_ne (tree : FileTree) {place other : Place}
    (different : other ≠ place) (entry : FileEntry) :
    (tree.insert place entry).lookup other = tree.lookup other := by
  have kept : ∀ entries : List (Place × FileEntry),
      (entries.filter (·.1 ≠ place)).lookup other = entries.lookup other := by
    intro entries
    induction entries with
    | nil => rfl
    | cons head rest inductionHypothesis =>
      rcases head with ⟨key, value⟩
      by_cases same : key = place
      · have skipped : (other == key) = false := by simpa [same] using different
        simp only [List.lookup_cons, skipped]
        simpa [same] using inductionHypothesis
      · simp_all [List.lookup_cons]
  have skipped : (other == place) = false := by simpa using different
  simp only [lookup, insert, List.lookup_cons, skipped, kept]

/-- A step from a place by one piece of a path; only a directory can be left. -/
def enter (tree : FileTree) (place : Place) (piece : List Char) : Except FileError Place :=
  match tree.lookup place with
  | none => .error .notFound
  | some (.file _) | some .sink => .error .notDirectory
  | some .directory =>
    if Path.isIdle piece then .ok place
    else if piece = Path.up then .ok place.dropLast
    else if 255 < (String.ofList piece).utf8ByteSize then .error .nameTooLong
    else .ok (place ++ [String.ofList piece])

/-- The place where pieces lead from another place. -/
def follow (tree : FileTree) (start : Place) (pieces : List (List Char)) : Except FileError Place :=
  pieces.foldlM tree.enter start

/-- The place from which a path starts. -/
def start (tree : FileTree) (path : String) : Place :=
  if path.toList.head? = some '/' then [] else tree.workingDirectory

def checkPath (path : String) : Except FileError Unit :=
  if path.isEmpty then .error .notFound
  else if path.toList.any (· = '\x00') then .error .nullInPath
  else if 4096 ≤ path.utf8ByteSize then .error .nameTooLong
  else .ok ()

/-- The place that a path leads to; what is there is not looked at yet. -/
def resolve (tree : FileTree) (path : String) : Except FileError Place := do
  checkPath path
  tree.follow (tree.start path) (Path.pieces path)

def isDirectory (tree : FileTree) (path : String) : Bool :=
  match tree.resolve path with
  | .ok place => (tree.lookup place).any FileEntry.isDirectory
  | .error _ => false

def read (tree : FileTree) (path : String) : Except FileError ByteArray := do
  let place ← tree.resolve path
  match tree.lookup place with
  | none => .error .notFound
  | some .directory => .error .isDirectory
  | some (.file content) => .ok content
  | some .sink => .ok .empty

/-- The tree with an empty file at a place; a device stays what it is. -/
def clear (tree : FileTree) (place : Place) : FileTree :=
  if (tree.lookup place).any FileEntry.isSink then tree else tree.insert place (.file .empty)

/-- The tree with more bytes at the end of a file; a device stays what it is. -/
def append (tree : FileTree) (place : Place) (bytes : ByteArray) : FileTree :=
  match tree.lookup place with
  | some (.file content) => tree.insert place (.file (content ++ bytes))
  | _ => tree

/-- The place at the end of a path, and the tree with an empty file there. The directory of the file
has to be there, and a directory is not replaced. A slash at the end asks for a directory, so the
name before it is not looked at. -/
def create (tree : FileTree) (path : String) : Except FileError (Place × FileTree) := do
  checkPath path
  let (before, last, slash) := Path.cutLast path
  let directory ← tree.follow (tree.start path) before
  let place ← tree.enter directory (if slash then [] else last)
  if slash || !Path.isName last || (tree.lookup place).any FileEntry.isDirectory then
    .error .isDirectory
  else return (place, tree.clear place)

def createDirectory (tree : FileTree) (path : String) : Except FileError FileTree := do
  checkPath path
  let (before, last, _) := Path.cutLast path
  let directory ← tree.follow (tree.start path) before
  let place ← tree.enter directory last
  if !Path.isName last || (tree.lookup place).isSome then .error .alreadyExists
  else return tree.insert place .directory

end FileTree

end BenchStats
