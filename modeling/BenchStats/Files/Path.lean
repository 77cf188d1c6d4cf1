/-!
# Paths

A path is a text of names between slashes. Empty names and single dots lead nowhere, so they are
passed over wherever only the way counts.
-/

namespace BenchStats.Path

def pieces (path : String) : List (List Char) := path.toList.splitOn '/'

/-- Whether a piece leads nowhere. -/
def isIdle (piece : List Char) : Bool := piece.isEmpty || piece = ['.']

def up : List Char := ['.', '.']

/-- Whether a piece names something in the directory that it stands behind. -/
def isName (piece : List Char) : Bool := !isIdle piece && piece ≠ up

/-- A path cut at its last piece that is not empty: the pieces before it, that piece, and whether a
slash follows it. Where there is no such piece, the path leads to its start. -/
def cutLast (path : String) : List (List Char) × List Char × Bool :=
  let backwards := (pieces path).reverse
  match backwards.dropWhile List.isEmpty with
  | [] => ([], [], true)
  | last :: before => (before.reverse, last, backwards.head? = some [])

/-- Pieces without the idle ones at their end. -/
def trimIdle (pieces : List (List Char)) : List (List Char) :=
  (pieces.reverse.dropWhile isIdle).reverse

/-- The name at the end of a path, unless the path ends in a way up. -/
def fileName? (path : String) : Option (List Char) :=
  match (trimIdle (pieces path)).getLast? with
  | some name => if name = up then none else some name
  | none => none

/-- What follows the last dot of a name, if something stands before it. -/
def extensionOf? (name : List Char) : Option (List Char) :=
  match name.reverse.dropWhile (· ≠ '.') with
  | _ :: _ :: _ => some (name.reverse.takeWhile (· ≠ '.')).reverse
  | _ => none

/-- The extension of the name at the end of a path. -/
def extension? (path : String) : Option (List Char) := (fileName? path).bind extensionOf?

def ofPieces (pieces : List (List Char)) : String := String.ofList (['/'].intercalate pieces)

/-- The path without its last name and the idle pieces around it. A path that only names the root,
and an empty one, have none. -/
def parent? (path : String) : Option String :=
  let (front, body) := match pieces path with
    | first :: rest => if isIdle first then ([first], rest) else ([], first :: rest)
    | [] => ([], [])
  match trimIdle body with
  | [] => if front = [['.']] then some "" else none
  | names =>
    let above := trimIdle names.dropLast
    if front = [[]] && above.isEmpty then some "/" else some (ofPieces (front ++ above))

/-- A path and all the paths above it, from the longest to the shortest. The paths get shorter, so
the length of the first bounds their number. -/
def ancestorsFrom : Nat → String → List String
  | 0, _ => []
  | fuel + 1, path =>
    match parent? path with
    | none => [path]
    | some above => path :: ancestorsFrom fuel above

/-- A path and all the paths above it, from the longest to the shortest. -/
def ancestors (path : String) : List String := ancestorsFrom (path.length + 1) path

end BenchStats.Path
