import ApiManual.CommandLine

/-!
# The program

Loads the part of the file system that a run looks at, runs the command on it, and
writes back what the run has changed.
-/

namespace ApiManual.Main

def nativePath (place : Location) : String :=
  String.ofList ('/' :: Text.join ['/'] place)

/-- Notes what stands at a place, without the content of files. -/
def loadNode (t : FileTree) (place : Location) : IO FileTree := do
  let path := System.mkFilePath [nativePath place]
  if (t.node? place).isSome then
    return t
  else if ← path.isDir then
    return t.insert place .directory
  else if ← path.pathExists then
    return t.insert place (.file .empty)
  else
    return t

def nextPlace (place : Location) : Path.Component → Location
  | .root => []
  | .current => place
  | .parent => place.dropLast
  | .normal name => place ++ [name]

/-- Notes what stands at each place along a path, and answers the place it leads to. -/
def loadAlong (t : FileTree) (path : Text) : IO (FileTree × Location) := do
  let mut t := t
  let mut place := t.startOf path
  for c in Path.components path do
    place := nextPlace place c
    t ← loadNode t place
  return (t, place)

/-- Notes everything below a directory, at most `depth` names down. -/
def loadBelow (t : FileTree) (place : Location) : (depth : Nat) → IO FileTree
  | 0 => return t
  | depth + 1 => do
    let path := System.mkFilePath [nativePath place]
    if ← path.isDir then
      let mut t := t
      for entry in ← path.readDir do
        let child := place ++ [entry.fileName.toList]
        t ← loadBelow (← loadNode t child) child depth
      return t
    else
      return t

/-- More names than any path can have. -/
def maxDepth : Nat := 4096

/-- Fills in the content of a file. -/
def loadContent (t : FileTree) (path : Text) : IO FileTree := do
  match t.locate? path with
  | none => return t
  | some place => return t.insert place (.file (← IO.FS.readBinFile (nativePath place)))

/-- The part of the file system that a run with this configuration looks at. -/
def load (c : Site.Config) : IO FileTree := do
  let here := (← IO.currentDir).toString.toList
  let names := (Path.components here).filterMap Site.normalName?
  let (t, root) ← loadAlong { workingDirectory := names } c.sourceRoot
  let mut t ← loadBelow t root maxDepth
  if let .ok paths := Site.discover Glob.walk t c then
    for path in paths do
      t ← loadContent t path
  if let .ok sources := Site.readSources Glob.walk t c then
    for source in sources do
      t := (← loadAlong t (Path.join c.outputRoot (Site.docPath source.path))).1
  return t

/-- Writes back the nodes in which the second tree differs from the first. -/
def store (before after : FileTree) : IO Unit := do
  for (place, node) in after.nodes do
    if before.nodes.lookup place ≠ some node then
      match node with
      | .directory => IO.FS.createDirAll (nativePath place)
      | .file content => IO.FS.writeBinFile (nativePath place) content

def usage : String :=
  "Generate cross-linked markdown API pages from annotated Lua sources\n\n" ++
  "  -s, --source <DIR>      source root, scanned recursively [default: lua]\n" ++
  "  -o, --output <DIR>      output root [default: doc/api]\n" ++
  "  -b, --base-url <URL>    URL of the generated pages [default: /api]\n" ++
  "  -e, --extension <EXT>   extension of the source files [default: lua]\n" ++
  "  -v, --verbose           log debug output\n" ++
  "  -h, --help              print this help"

end ApiManual.Main

open ApiManual

def main (args : List String) : IO UInt32 := do
  let args := args.map String.toList
  let before ←
    match CommandLine.Command.ofArgs args with
    | .run g => Main.load g.config
    | _ => pure {}
  let (outcome, after) := CommandLine.execute before args
  Main.store before after
  if CommandLine.Command.ofArgs args = .help then
    IO.println Main.usage
  else if CommandLine.Command.ofArgs args = .refused then
    IO.eprintln Main.usage
  if let some message := outcome.message then
    IO.eprintln ("Error: " ++ String.ofList message)
  return outcome.exitCode.toUInt32
