import ApiManual.DocComment.Function
import ApiManual.DocComment.Line
import ApiManual.Path
import ApiManual.Text.Lines

/-!
# Reading annotated sources

A source is read line by line.  The state holds what has been documented so far and
the block that is still open.  A block ends at the first line that is neither a doc
line nor a separator; if that line is code, it is the declaration the block belongs to.
-/

namespace ApiManual.DocComment

structure Reading where
  /-- What is documented so far, under no name yet. -/
  doc : ModuleDoc := { name := [] }
  moduleName : Option Text := none
  /-- Whether some block has described the module. -/
  described : Bool := false
  /-- The number of the class a name stands for, the newest binding first. -/
  owners : List (Text × Nat) := []
  block : Option DocBlock := none
  /-- Whether doc lines go to the usage section of the block. -/
  inUsage : Bool := false
  sawCode : Bool := false
  deriving Inhabited

/-- The tag that makes a block a class block, and whether it is an enumeration. -/
def DocBlock.classTag? (b : DocBlock) : Option (Tag × Bool) :=
  ((b.tag? "class".toList).map (·, false)).or ((b.tag? "enum".toList).map (·, true))

/-- The tag that names the module, and whether the module is a class module. -/
def DocBlock.moduleTag? (b : DocBlock) : Option (Tag × Bool) :=
  ((b.tag? "module".toList).map (·, false)).or ((b.tag? "classmod".toList).map (·, true))

def DocBlock.checkTags (b : DocBlock) : Except Fault Unit :=
  match b.tags.find? (!·.isKnown) with
  | some t => .error (.unknownTag t.line t.name)
  | none => .ok ()

def Declaration.isFunction : Declaration → Bool
  | .function .. => true
  | _ => false

/-- The name that an assignment binds to the class documented above it. -/
def Declaration.target? : Declaration → Option Text
  | .assignment target => some target
  | _ => none

namespace Reading

def describe (r : Reading) (b : DocBlock) : Reading :=
  let (summary, details) := b.descriptions
  { r with doc := { r.doc with summary, details }, described := true }

/-- Whether a block without a tag for the module describes it all the same: it is the
first to do so, it stands above all code, and it belongs to no class or function. -/
def isLeadingComment (r : Reading) (b : DocBlock) (d : Declaration) : Bool :=
  !r.described && !r.sawCode && b.classTag?.isNone && !d.isFunction

/-- Takes the name and the description of the module from a block that gives them; the
answer says whether the block does. -/
def attachModule (r : Reading) (b : DocBlock) (d : Declaration) :
    Except Fault (Reading × Bool) :=
  match b.moduleTag? with
  | some (t, isClassModule) => do
    let name ← DocComment.moduleName t
    let r := { r with moduleName := some name, doc := { r.doc with isClassModule } }
    return (r.describe b, true)
  | none =>
    if r.isLeadingComment b d then .ok (r.describe b, true) else .ok (r, false)

/-- Adds the class of a block.  The class has no description of its own if the block
describes the module. -/
def attachClass (r : Reading) (b : DocBlock) (t : Tag) (isEnum : Bool) (d : Declaration)
    (describesModule : Bool) : Except Fault Reading := do
  let name ← className t
  let (summary, details) := if describesModule then ([], []) else b.descriptions
  let fields ← (b.tagsNamed "field".toList).mapM (fieldDoc isEnum)
  let number := r.doc.classes.length
  let owners := (name, number) :: r.owners
  let owners :=
    match d.target? with
    | some target => (target, number) :: owners
    | none => owners
  let classes := r.doc.classes ++ [{ name, summary, details, fields, isEnum }]
  return { r with owners, doc := { r.doc with classes } }

def addMethod (r : Reading) (number : Nat) (f : FunctionDoc) : Reading :=
  let classes := r.doc.classes.modify number fun c => { c with methods := c.methods ++ [f] }
  { r with doc := { r.doc with classes } }

def addFunction (r : Reading) (f : FunctionDoc) : Reading :=
  { r with doc := { r.doc with functions := r.doc.functions ++ [f] } }

/-- Adds a function to the class of its owner, or to the functions of the module. -/
def attachFunction (r : Reading) (b : DocBlock) (d : Declaration) : Except Fault Reading :=
  match d with
  | .function owner name args isLocal => do
    let f ← functionDoc b name args isLocal
    match owner.bind (List.lookup · r.owners) with
    | some number => return r.addMethod number f
    | none => return r.addFunction f
  | _ => .ok r

/-- Adds what a finished block documents. -/
def attach (r : Reading) (b : DocBlock) (d : Declaration) : Except Fault Reading := do
  b.checkTags
  let (r, describesModule) ← r.attachModule b d
  match b.classTag? with
  | some (t, isEnum) => r.attachClass b t isEnum d describesModule
  | none =>
    match b.tag? "field".toList with
    | some t => .error (.fieldOutsideClass t.line)
    | none => r.attachFunction b d

/-- Ends the open block, if there is one. -/
def close (r : Reading) (d : Declaration) : Except Fault Reading :=
  match r.block with
  | some b => { r with block := none, inUsage := false }.attach b d
  | none => .ok { r with inUsage := false }

def openBlock (r : Reading) (n : Nat) : DocBlock :=
  r.block.getD { firstLine := n }

def addTag (r : Reading) (n : Nat) (name operand : Text) : Reading :=
  let isUsage := name = "usage".toList
  let b := r.openBlock n
  let b := if isUsage then b.openUsage operand else b
  { r with block := some (b.addTag ⟨n, name, operand⟩), inUsage := isUsage }

def addContent (r : Reading) (n : Nat) (content : Text) : Reading :=
  let b := r.openBlock n
  { r with block := some (if r.inUsage then b.addUsage content else b.addText content) }

/-- Reads the line with number `n`. -/
def step (r : Reading) (n : Nat) (line : Text) : Except Fault Reading :=
  match SourceLine.ofText line with
  | .separator => .ok { r with block := r.block.map (·.addText []) }
  | .tag name operand => .ok (r.addTag n name operand)
  | .text content => .ok (r.addContent n content)
  | .gap => r.close .other
  | .code line => (r.close (.ofLine line)).map fun r => { r with sawCode := true }

def run (r : Reading) (lines : List (Text × Nat)) : Except Fault Reading :=
  lines.foldlM (fun r (line, n) => r.step n line) r

/-- The documented module, under the name that the source gives or else under `name`. -/
def finish (r : Reading) (name : Text) : Except Fault ModuleDoc := do
  let r ← r.close .other
  let m := { r.doc with name := r.moduleName.getD name }
  if m.isClassModule && m.classes.isEmpty then
    .error (.classModuleWithoutClass m.name)
  else
    .ok m

end Reading

/-- The lines of a source with their numbers, counted from one. -/
def numberedLines (source : Text) : List (Text × Nat) :=
  (Text.lines source).zipIdx 1

def readSource (name source : Text) : Except Fault ModuleDoc := do
  let r ← ({} : Reading).run (numberedLines source)
  r.finish name

/-- Reads the source in the file at `path`.  A module without a name of its own is named
after the file. -/
def readAt (path source : Text) : Except Fault ModuleDoc :=
  readSource ((Path.fileStem? path).getD []) source

end ApiManual.DocComment
