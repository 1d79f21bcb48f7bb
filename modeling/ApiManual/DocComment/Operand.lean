import ApiManual.DocComment.Block
import ApiManual.DocComment.Declaration
import ApiManual.DocComment.Fault
import ApiManual.TypeExpr.Parse

/-!
# Operands of tags

How the operands of `@param`, `@return`, `@field`, `@class` and `@module` are read.
-/

namespace ApiManual.DocComment

/-- A description may be introduced by number signs. -/
def cleanDetails (s : Text) : Text :=
  Text.trim ((Text.trim s).dropWhile (· = '#'))

def Tag.missing (t : Tag) (what : Missing) : Fault :=
  .missingOperand t.line t.name what

def Tag.malformed (t : Tag) (text : Text) (reason : TypeError) : Fault :=
  .malformedType t.line text reason

/-- Splits an operand at the end of its type. -/
def Tag.splitType (t : Tag) (operand : Text) : Except Fault (Text × Text) :=
  (TypeExpr.split operand).mapError (t.malformed operand)

def Tag.parseType (t : Tag) (text : Text) : Except Fault LuaType :=
  (TypeExpr.parse text).mapError (t.malformed text)

/-- The text behind the blanks that end a part of an operand, where the part ends. -/
def nextPart? : Text → Option Text
  | [] => some []
  | c :: rest => if Text.isBlank c then some (Text.skipBlanks rest) else none

/-- The parts of a `@param` operand. -/
structure ParamOperand where
  name : Text
  optional : Bool
  defaultValue : Option Text
  rest : Text

def paramName? (s : Text) : Option (Text × Text) :=
  match s with
  | '.' :: '.' :: '.' :: rest => some ("...".toList, rest)
  | _ =>
    if startsIdentifier s then
      some (s.takeWhile Unicode.isWord, s.dropWhile Unicode.isWord)
    else
      none

def takeMark : Text → Bool × Text
  | '?' :: rest => (true, rest)
  | rest => (false, rest)

/-- A default value follows `=` and has at least one character. -/
def takeDefault? : Text → Option (Option Text × Text)
  | '=' :: rest =>
    let value := rest.takeWhile (!Text.isWhitespace ·)
    if value.isEmpty then none
    else some (some value, rest.dropWhile (!Text.isWhitespace ·))
  | rest => some (none, rest)

/-- Reads `name`, `name?` or `name=value`, then the type and the description. -/
def ParamOperand.ofText? (s : Text) : Option ParamOperand := do
  let (name, behindName) ← paramName? s
  let (optional, behindMark) := takeMark behindName
  let (defaultValue, behindDefault) ← takeDefault? behindMark
  let rest ← nextPart? behindDefault
  return ⟨name, optional, defaultValue, rest⟩

def paramDoc (t : Tag) : Except Fault ParamDoc :=
  match ParamOperand.ofText? t.operand with
  | none => .error (t.missing .name)
  | some operand => do
    let (type, details) ← t.splitType operand.rest
    if type.isEmpty then
      .error (t.missing .type)
    else
      let (type, marked) := TypeExpr.stripOptional type
      return {
        name := operand.name
        type := ← t.parseType type
        details := cleanDetails details
        optional := operand.optional || operand.defaultValue.isSome || marked
        defaultValue := operand.defaultValue }

def returnDoc (t : Tag) : Except Fault ReturnDoc := do
  let (type, details) ← t.splitType t.operand
  if type.isEmpty then
    .error (t.missing .type)
  else
    return { type := ← t.parseType type, details := cleanDetails details }

/-- The visibility words a `@field` operand may begin with. -/
def visibilityWords : List (Text × Visibility) :=
  [("public".toList, .pub), ("private".toList, .priv), ("protected".toList, .prot),
    ("package".toList, .pub)]

def takeVisibility (s : Text) : Visibility × Text :=
  let found := visibilityWords.findSome? fun (word, visibility) =>
    (keyword? word s).map (visibility, ·)
  found.getD (.pub, s)

/-- Reads a visibility, a name, a type unless the field is a member of an enumeration,
and a description. -/
def fieldDoc (isEnum : Bool) (t : Tag) : Except Fault FieldDoc :=
  if t.operand.isEmpty then
    .error (t.missing .name)
  else
    let (visibility, operand) := takeVisibility t.operand
    let name := (TypeExpr.stripOptional (operand.takeWhile (!Text.isBlank ·))).1
    let rest := Text.skipBlanks (operand.dropWhile (!Text.isBlank ·))
    if isEnum then
      return { name, type := none, details := cleanDetails rest, visibility }
    else do
      let (type, details) ← t.splitType rest
      let details := cleanDetails details
      if type.isEmpty then
        return { name, type := none, details, visibility }
      else
        return { name, type := some (← t.parseType type), details, visibility }

/-- The name of a class, in front of a colon or a blank. -/
def className (t : Tag) : Except Fault Text :=
  let name := Text.trim (t.operand.takeWhile fun c => !(c = ':' || Text.isBlank c))
  if name.isEmpty then .error (t.missing .name) else .ok name

def moduleName (t : Tag) : Except Fault Text :=
  match Text.firstWord? t.operand with
  | some name => .ok name
  | none => .error (t.missing .name)

end ApiManual.DocComment
