import ApiManual.DocComment.Reading
import ApiManual.FileTree
import ApiManual.Site.Failure
import ApiManual.Site.Page

/-!
# Generating a site

A run finds the sources below the source root, reads all of them, and only then writes
the pages, one after the other in the order of the sources.  The first failure ends the
run; pages written before it stay.

How a file tree is searched for the sources is left open.  A run is given a walk for that.
-/

namespace ApiManual.Site

/-- Finds the paths that a pattern stands for. -/
structure Walk where
  /-- Writes a text so that a pattern takes it literally. -/
  escape : Text → Text
  /-- What the walk comes to, in its order, unless the text is no pattern.  An entry without
  a path is something that could not be read. -/
  entries? : FileTree → Text → Option (List (Option Text))

structure Config where
  sourceRoot : Text := "lua".toList
  outputRoot : Text := "doc/api".toList
  baseUrl : Text := "/api".toList
  extension : Text := "lua".toList
  deriving DecidableEq, Inhabited

/-- The pattern of all sources at any depth below the source root. -/
def Config.pattern (c : Config) (w : Walk) : Text :=
  w.escape c.sourceRoot ++ "/**/*.".toList ++ c.extension

/-- Keeps the first of adjacent paths with the same components. -/
def dropRepeats : List Text → List Text
  | a :: b :: rest =>
    if Path.components a = Path.components b then
      dropRepeats (a :: rest)
    else
      a :: dropRepeats (b :: rest)
  | short => short
termination_by paths => paths.length

/-- The source files, in the order of their paths. -/
def discover (w : Walk) (t : FileTree) (c : Config) : Except Failure (List Text) :=
  if !t.isDirectory c.sourceRoot then
    .error (.noSourceRoot c.sourceRoot)
  else
    match w.entries? t (c.pattern w) with
    | none => .error (.badPattern (c.pattern w))
    | some entries =>
      match entries.mapM id with
      | none => .error .unscannable
      | some found => .ok (dropRepeats ((found.filter t.isFile).mergeSort Path.precedes))

def readSource (t : FileTree) (c : Config) (path : Text) : Except Failure Source := do
  match t.readText? path with
  | none => .error (.unreadable path)
  | some content =>
    let doc ← (DocComment.readAt path content).mapError (.malformed path)
    match Path.relative? path c.sourceRoot with
    | none => .error (.outsideRoot path c.sourceRoot)
    | some relative => .ok ⟨relative, doc⟩

def readSources (w : Walk) (t : FileTree) (c : Config) : Except Failure (List Source) := do
  (← discover w t c).mapM (readSource t c)

/-- Writes a page and the directories above it. -/
def writePage (t : FileTree) (path content : Text) : Except Failure Unit × FileTree :=
  let parent := (Path.parent? path).getD []
  let (t, created) := t.createDirectories parent
  if !created then
    (.error (.noDirectory parent), t)
  else
    match t.write? path (String.ofList content).toUTF8 with
    | some t => (.ok (), t)
    | none => (.error (.unwritable path), t)

def writePages (t : FileTree) (outputRoot : Text) :
    List (Text × Text) → Except Failure Unit × FileTree
  | [] => (.ok (), t)
  | (path, content) :: rest =>
    match writePage t (Path.join outputRoot path) content with
    | (.ok (), t) => writePages t outputRoot rest
    | (.error e, t) => (.error e, t)

/-- Runs the generator: the number of pages, and the tree as the run leaves it. -/
def generateWith (w : Walk) (t : FileTree) (c : Config) : Except Failure Nat × FileTree :=
  match readSources w t c with
  | .error e => (.error e, t)
  | .ok sources =>
    match writePages t c.outputRoot (pages c.baseUrl sources) with
    | (.ok (), t) => (.ok sources.length, t)
    | (.error e, t) => (.error e, t)

end ApiManual.Site
