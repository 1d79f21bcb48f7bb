import ApiManual.Text.Basic
import ApiManual.Unicode.Word

/-!
# Declarations

What the line of code below a doc block declares: a function, as in `function A.f(x)`
or `A.f = function(x)`, the target of another assignment, or nothing of interest.
-/

namespace ApiManual.DocComment

inductive Declaration
  /-- The owner is the path in front of the last `.` or `:`. -/
  | function (owner : Option Text) (name : Text) (args : List Text) (isLocal : Bool)
  | assignment (target : Text)
  | other
  deriving DecidableEq, Inhabited

def isIdentifierStart (c : Char) : Bool :=
  c.isAlpha || c = '_'

def startsIdentifier : Text → Bool
  | c :: _ => isIdentifierStart c
  | [] => false

/-- Cuts a text behind identifiers joined by separators, from within an identifier. -/
def cutPath (isSeparator : Char → Bool) : Text → Text × Text
  | [] => ([], [])
  | c :: rest =>
    if Unicode.isWord c || (isSeparator c && startsIdentifier rest) then
      let (path, behind) := cutPath isSeparator rest
      (c :: path, behind)
    else
      ([], c :: rest)

/-- A path of identifiers in front of a text, and the text behind it. -/
def path? (isSeparator : Char → Bool) (s : Text) : Option (Text × Text) :=
  if startsIdentifier s then some (cutPath isSeparator s) else none

/-- The text behind a word and the blanks that must follow it. -/
def keyword? (word s : Text) : Option Text :=
  match Text.dropPrefix? word s with
  | some (c :: rest) => if Text.isBlank c then some (Text.skipBlanks rest) else none
  | _ => none

/-- The text between round brackets, up to the first closing one. -/
def argumentText? (s : Text) : Option Text :=
  match Text.skipBlanks s with
  | '(' :: rest => if rest.contains ')' then some (rest.takeWhile (· ≠ ')')) else none
  | _ => none

/-- The names between commas.  `self` is no argument of its own. -/
def argumentNames (s : Text) : List Text :=
  ((s.splitOn ',').map Text.trim).filter fun name => !name.isEmpty && name ≠ "self".toList

def isDot (c : Char) : Bool :=
  c = '.'

def isDotOrColon (c : Char) : Bool :=
  c = '.' || c = ':'

/-- The text behind the `=` of an assignment, and its target. -/
def assigned? (s : Text) : Option (Text × Text) :=
  match path? isDot s with
  | some (target, behind) =>
    match Text.skipBlanks behind with
    | '=' :: value => some (target, value)
    | _ => none
  | none => none

/-- The path and the arguments in `function path(args)`. -/
def declaredFunction? (s : Text) : Option (Text × Text) := do
  let rest ← keyword? "function".toList s
  let (path, behind) ← path? isDotOrColon rest
  let args ← argumentText? behind
  return (path, args)

/-- The path and the arguments in `path = function(args)`. -/
def assignedFunction? (s : Text) : Option (Text × Text) := do
  let (path, value) ← assigned? s
  let behind ← Text.dropPrefix? "function".toList (Text.skipBlanks value)
  let args ← argumentText? behind
  return (path, args)

/-- Reads a line with the word `local` in front, or else as it stands; the answer says
whether the word was there. -/
def withLocal? {α : Type} (reader : Text → Option α) (line : Text) : Option (α × Bool) :=
  let s := Text.skipBlanks line
  match (keyword? "local".toList s).bind reader with
  | some a => some (a, true)
  | none => (reader s).map (·, false)

/-- The owner and the name in the path of a function. -/
def splitOwner (path : Text) : Option Text × Text :=
  let name := (path.reverse.takeWhile (!isDotOrColon ·)).reverse
  if name.length = path.length then
    (none, path)
  else
    (some (path.take (path.length - name.length - 1)), name)

def Declaration.ofFunction (path args : Text) (isLocal : Bool) : Declaration :=
  let (owner, name) := splitOwner path
  .function owner name (argumentNames args) isLocal

def Declaration.ofLine (line : Text) : Declaration :=
  match (withLocal? declaredFunction? line).or (withLocal? assignedFunction? line) with
  | some ((path, args), isLocal) => .ofFunction path args isLocal
  | none =>
    match withLocal? assigned? line with
    | some ((target, _), _) => .assignment target
    | none => .other

end ApiManual.DocComment
