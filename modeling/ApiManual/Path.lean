import ApiManual.Text.Basic

/-!
# Paths

A path is a text with slashes in it.  Its components are what stands between the
slashes: empty ones and `.` do not count, except for a `.` in front of a relative path.
The operations on names and extensions look at the last component only, and keep the
spelling of everything before it.
-/

namespace ApiManual

namespace Path

inductive Component
  | root
  | current
  | parent
  | normal (name : Text)
  deriving DecidableEq, Inhabited

def Component.text : Component → Text
  | .root => ['/']
  | .current => ['.']
  | .parent => ['.', '.']
  | .normal name => name

def isAbsolute (path : Text) : Bool :=
  path.head? = some '/'

/-- The component that a piece between two slashes stands for.  An empty piece and a `.`
stand for none. -/
def pieceComponent? (piece : Text) : Option Component :=
  if piece = [] || piece = ['.'] then none
  else if piece = ['.', '.'] then some .parent
  else some (.normal piece)

def components (path : Text) : List Component :=
  let pieces := path.splitOn '/'
  let front :=
    if isAbsolute path then [.root] else if pieces.head? = some ['.'] then [.current] else []
  front ++ pieces.filterMap pieceComponent?

/-- The components without those that stay in the same directory. -/
def steps (path : Text) : List Component :=
  (components path).filter (· ≠ .current)

/-- Writes components as a path. -/
def ofComponents (cs : List Component) : Text :=
  match cs with
  | .root :: rest => '/' :: Text.join ['/'] (rest.map Component.text)
  | _ => Text.join ['/'] (cs.map Component.text)

/-- The last component with its text, the text in front of it and the text behind it,
which is made of slashes and of pieces that do not count. -/
structure Tail where
  front : Text
  last : Component
  behind : Text

/-- Finds the last component among pieces in reverse order, `behind` being the text
behind them.  The first piece of a relative path counts even when it is a `.`. -/
def tailOfPieces? (absolute : Bool) : List Text → Text → Option Tail
  | [], _ => none
  | piece :: earlier, behind =>
    let front := earlier.reverse.flatMap (· ++ ['/'])
    match pieceComponent? piece with
    | some c => some ⟨front, c, behind⟩
    | none =>
      if earlier.isEmpty then
        if piece = ['.'] && !absolute then some ⟨[], .current, behind⟩ else none
      else
        tailOfPieces? absolute earlier ('/' :: piece ++ behind)

def tail? (path : Text) : Option Tail :=
  tailOfPieces? (isAbsolute path) (path.splitOn '/').reverse []

/-- The last component, if it is a name. -/
def fileName? (path : Text) : Option Text :=
  match (components path).getLast? with
  | some (.normal name) => some name
  | _ => none

/-- Splits a name at its last dot.  A dot at the very front separates nothing. -/
def splitName (name : Text) : Text × Option Text :=
  let ext := (name.reverse.takeWhile (· ≠ '.')).reverse
  let stem := name.take (name.length - ext.length - 1)
  if stem.isEmpty || ext.length = name.length then (name, none) else (stem, some ext)

def fileStem? (path : Text) : Option Text :=
  (fileName? path).map fun name => (splitName name).1

def extension? (path : Text) : Option Text :=
  (fileName? path).bind fun name => (splitName name).2

/-- Puts an extension behind the stem of the last component, in place of all that stood
there. -/
def setExtension (path ext : Text) : Text :=
  match tail? path with
  | some ⟨front, .normal name, _⟩ =>
    front ++ (splitName name).1 ++ if ext.isEmpty then [] else '.' :: ext
  | _ => path

/-- The path with another extension.  The text of the present extension is first cut off
the end of the path, slashes included. -/
def withExtension (path ext : Text) : Text :=
  match extension? path with
  | some present => setExtension (path.take (path.length - present.length)) ext
  | none => setExtension path ext

/-- The path of `path` seen from `base`. -/
def join (base path : Text) : Text :=
  if isAbsolute path then path
  else if base.isEmpty || base.getLast? = some '/' then base ++ path
  else base ++ '/' :: path

/-- What is left in front of the last component, without slashes and pieces at its end
that do not count. -/
def parent? (path : Text) : Option Text :=
  match tail? path with
  | none => none
  | some t =>
    match tail? t.front with
    | some before => some (before.front ++ before.last.text)
    | none => some (if isAbsolute path then ['/'] else [])

/-- The components of `path` behind those of `root`, where `.` counts in neither. -/
def relative? (path root : Text) : Option Text :=
  if (steps root).isPrefixOf (steps path) then
    some (ofComponents ((steps path).drop (steps root).length))
  else
    none

/-- A key by which paths are put in order: component by component, names by their code
points and behind the special components. -/
def Component.key : Component → List Nat
  | .root => [0]
  | .current => [1]
  | .parent => [2]
  | .normal name => 3 :: name.map Char.toNat

def key (path : Text) : List (List Nat) :=
  (components path).map Component.key

def precedes (a b : Text) : Bool :=
  !decide (key b < key a)

end Path

end ApiManual
