import ApiManual.Path

/-!
# File trees

A file tree holds directories and files under their names from the root down, together
with the working directory from which relative paths start.  The root and the working
directory are always there.  A path is followed piece by piece: each piece needs a
directory to start from, `..` goes back to the directory above, and a name has to be
there.  A path of 4096 bytes or more cannot be followed at all, however short the way is.
-/

namespace ApiManual

inductive Node
  | directory
  | file (content : ByteArray)
  deriving Inhabited

theorem Node.file_inj {a b : ByteArray} : Node.file a = .file b ↔ a.data = b.data := by
  cases a
  cases b
  simp

instance : DecidableEq Node
  | .directory, .directory => isTrue rfl
  | .directory, .file _ => isFalse (by simp)
  | .file _, .directory => isFalse (by simp)
  | .file a, .file b => decidable_of_iff (a.data = b.data) Node.file_inj.symm

/-- The names that lead from the root to a place. -/
abbrev Location := List Text

structure FileTree where
  nodes : List (Location × Node) := []
  workingDirectory : Location := []
  deriving Inhabited

namespace FileTree

def node? (t : FileTree) (place : Location) : Option Node :=
  if place.isPrefixOf t.workingDirectory then some .directory else t.nodes.lookup place

def isDirectoryAt (t : FileTree) (place : Location) : Bool :=
  match t.node? place with
  | some .directory => true
  | _ => false

def startOf (t : FileTree) (path : Text) : Location :=
  if Path.isAbsolute path then [] else t.workingDirectory

/-- The place one piece further on. -/
def enter? (t : FileTree) (place : Location) (piece : Text) : Option Location :=
  if !t.isDirectoryAt place then none
  else if piece = [] || piece = ['.'] then some place
  else if piece = ['.', '.'] then some place.dropLast
  else if (t.node? (place ++ [piece])).isSome then some (place ++ [piece])
  else none

/-- Whether a path is short enough to be followed. -/
def isPath (path : Text) : Bool :=
  Text.byteLength path < 4096

/-- The place a path leads to.  The empty path leads nowhere. -/
def locate? (t : FileTree) (path : Text) : Option Location :=
  if path.isEmpty || !isPath path then
    none
  else
    (path.splitOn '/').foldlM t.enter? (t.startOf path)

def get? (t : FileTree) (path : Text) : Option Node :=
  (t.locate? path).bind t.node?

def contains (t : FileTree) (path : Text) : Bool :=
  (t.get? path).isSome

def isDirectory (t : FileTree) (path : Text) : Bool :=
  match t.get? path with
  | some .directory => true
  | _ => false

def isFile (t : FileTree) (path : Text) : Bool :=
  match t.get? path with
  | some (.file _) => true
  | _ => false

/-- The content of a file, if it is text. -/
def readText? (t : FileTree) (path : Text) : Option Text :=
  match t.get? path with
  | some (.file content) => (String.fromUTF8? content).map String.toList
  | _ => none

/-- The order of places: name by name, names by their code points. -/
def precedes (a b : Location) : Bool :=
  !decide (b.map (·.map Char.toNat) < a.map (·.map Char.toNat))

/-- The places below a directory, seen from it and in order, so that a directory comes
directly before what it holds. -/
def below (t : FileTree) (place : Location) : List Location :=
  let inside := t.nodes.filter fun (p, _) => place.isPrefixOf p && place.length < p.length
  (inside.map fun (p, _) => p.drop place.length).mergeSort precedes

/-- The names in a directory, in order. -/
def children (t : FileTree) (place : Location) : List Text :=
  (t.below place).filterMap fun
    | [name] => some name
    | _ => none

def insert (t : FileTree) (place : Location) (node : Node) : FileTree :=
  if t.nodes.any (·.1 = place) then
    { t with nodes := t.nodes.map fun (p, n) => if p = place then (p, node) else (p, n) }
  else
    { t with nodes := t.nodes ++ [(place, node)] }

/-- A name has at least one character and at most 255 bytes, and no character NUL. -/
def isName (name : Text) : Bool :=
  !name.isEmpty && name ≠ ['.'] && name ≠ ['.', '.'] && !name.contains '\x00' &&
    Text.byteLength name ≤ 255

/-- Creates the directories that the pieces name, as far as they are missing.  The
answer says whether all of them are there in the end. -/
def createPieces (t : FileTree) (place : Location) : List Text → FileTree × Bool
  | [] => (t, true)
  | piece :: rest =>
    if piece = [] || piece = ['.'] then
      createPieces t place rest
    else if piece = ['.', '.'] then
      createPieces t place.dropLast rest
    else
      match t.node? (place ++ [piece]) with
      | some .directory => createPieces t (place ++ [piece]) rest
      | some (.file _) => (t, false)
      | none =>
        if isName piece then
          createPieces (t.insert (place ++ [piece]) .directory) (place ++ [piece]) rest
        else
          (t, false)

def createDirectories (t : FileTree) (path : Text) : FileTree × Bool :=
  if isPath path then t.createPieces (t.startOf path) (path.splitOn '/') else (t, false)

/-- Writes a file in a directory that is there.  A directory is not overwritten. -/
def write? (t : FileTree) (path : Text) (content : ByteArray) : Option FileTree := do
  let pieces := path.splitOn '/'
  let place ← pieces.dropLast.foldlM t.enter? (t.startOf path)
  let name ← pieces.getLast?
  let file := place ++ [name]
  if isPath path && t.isDirectoryAt place && isName name && !t.isDirectoryAt file then
    some (t.insert file (.file content))
  else
    none

end FileTree

end ApiManual
