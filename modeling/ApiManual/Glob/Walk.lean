import ApiManual.Glob.Pattern
import ApiManual.FileTree

/-!
# Walking a file tree by a pattern

The paths that a pattern finds, in the order in which the walk meets them.  Names
without special characters are followed without looking at what a directory holds;
for the others the names in a directory are tried in order.  A directory whose path is
too long cannot be read, and a walk that meets one finds nothing.
-/

namespace ApiManual.Glob

/-- The patterns of a path, one for each name. -/
structure PathPattern where
  absolute : Bool
  names : List Pattern
  /-- Whether the pattern ends in a slash and so finds directories only. -/
  directoriesOnly : Bool

/-- The pieces of a text between slashes; a slash at the end opens no further piece. -/
def pieces (s : Text) : List Text :=
  let all := s.splitOn '/'
  if all.getLast? = some [] then all.dropLast else all

def PathPattern.ofText? (s : Text) : Option PathPattern := do
  let absolute := Path.isAbsolute s
  let names ← (pieces (if absolute then s.drop 1 else s)).mapM Pattern.ofText?
  return {
    absolute
    names := if absolute && s.length = 1 then [.name []] else names
    directoriesOnly := s.getLast? = some '/' }

/-- Adjacent `**` are one. -/
def mergeAnyDepth : List Pattern → List Pattern
  | .anyDepth :: .anyDepth :: rest => mergeAnyDepth (.anyDepth :: rest)
  | p :: rest => p :: mergeAnyDepth rest
  | [] => []

def isCurrent (path : Text) : Bool :=
  Path.components path = [.current]

/-- The path of a name in the directory `path`, where the current directory is not
written. -/
def childPath (path name : Text) : Text :=
  if isCurrent path then name else Path.join path name

/-- A place that a walk has come to.  What stands at an entry of a directory is known from
the directory, even where the path is too long to be followed. -/
structure Spot where
  path : Text
  isDirectory : Bool

/-- The spot at a path that no directory has listed. -/
def Spot.at (t : FileTree) (path : Text) : Spot :=
  ⟨path, t.isDirectory path⟩

/-- The entry of the directory `path`, which stands at `place`, that the names lead to. -/
def entry (t : FileTree) (path : Text) (place names : Location) : Spot :=
  ⟨childPath path (Text.join ['/'] names), t.isDirectoryAt (place ++ names)⟩

/-- The entries of a directory, each with its name, unless the directory cannot be
read. -/
def entries? (t : FileTree) (path : Text) : Option (List (Text × Spot)) := do
  let place ← t.locate? path
  return (t.children place).map fun name => (name, entry t path place [name])

/-- Everything below a directory, each with its last name, unless one of the directories
on the way cannot be read. -/
def descendants? (t : FileTree) (path : Text) : Option (List (Text × Spot)) := do
  let place ← t.locate? path
  let all := (t.below place).map fun names =>
    (names.getLastD [], entry t path place names)
  if all.all fun (_, spot) => !spot.isDirectory || FileTree.isPath spot.path then
    some all
  else
    none

def isSpecial (name : Text) : Bool :=
  name = ['.'] || name = ['.', '.']

/-- The special names that a pattern finds in every directory.  It has to begin with a
dot of its own for that. -/
def specialNames (p : Pattern) : List Text :=
  if p.startsWithDot then [['.', '.'], ['.']].filter p.accepts else []

/-- The spots that a single name's pattern leads to, unless the directory they are in
cannot be read. -/
def next? (t : FileTree) (p : Pattern) (spot : Spot) : Option (List Spot) :=
  match p.literal? with
  | some name =>
    let path := childPath spot.path name
    let isThere := if isSpecial name then spot.isDirectory else t.contains path
    some (if isThere then [.at t path] else [])
  | none =>
    if spot.isDirectory then do
      let entries ← entries? t spot.path
      let specials := (specialNames p).map fun name => .at t (Path.join spot.path name)
      return specials ++ (entries.filter (p.accepts ·.1)).map Prod.snd
    else
      some []

/-- The spots at any depth below a spot, each with its last name. -/
def below? (t : FileTree) (spot : Spot) : Option (List (Text × Spot)) :=
  if spot.isDirectory then descendants? t spot.path else some []

/-- What the patterns find from a spot on.  The walk fails as a whole if it meets a
directory that cannot be read. -/
def expand? (t : FileTree) (directoriesOnly : Bool) : List Pattern → Spot → Option (List Text)
  | [], spot => some (if directoriesOnly && !spot.isDirectory then [] else [spot.path])
  | [.anyDepth], spot => do
    let below ← below? t spot
    return (below.filter (·.2.isDirectory)).map (·.2.path)
  | .anyDepth :: p :: rest, spot => do
    let below ← below? t spot
    let found ← (below.filter (p.accepts ·.1)).mapM fun entry =>
      expand? t directoriesOnly rest entry.2
    return found.flatten
  | p :: rest, spot => do
    let found ← (← next? t p spot).mapM fun spot => expand? t directoriesOnly rest spot
    return found.flatten

/-- The paths that a pattern finds, in the order of the walk. -/
def walk? (t : FileTree) (p : PathPattern) : Option (List Text) :=
  expand? t p.directoriesOnly (mergeAnyDepth p.names)
    (.at t (if p.absolute then ['/'] else ['.']))

end ApiManual.Glob
