import ApiManual.Doc
import ApiManual.Text.Indent

/-!
# Doc blocks

Consecutive doc lines form a block.  It collects the lines of description, the tags,
and the lines of the last usage section.
-/

namespace ApiManual.DocComment

structure Tag where
  /-- The number of the line, counted from one. -/
  line : Nat
  name : Text
  operand : Text
  deriving DecidableEq, Inhabited

structure DocBlock where
  firstLine : Nat
  text : List Text := []
  tags : List Tag := []
  usage : Option (List Text) := none
  deriving DecidableEq, Inhabited

/-- The tags that have a meaning. -/
def documentedTags : List Text :=
  ["module", "classmod", "class", "enum", "field", "param", "return", "usage", "private",
    "protected", "public"].map String.toList

/-- The tags that are accepted and show nowhere. -/
def ignoredTags : List Text :=
  ["alias", "as", "async", "cast", "deprecated", "diagnostic", "generic", "meta",
    "nodiscard", "operator", "overload", "package", "see", "source", "type", "vararg",
    "version"].map String.toList

def Tag.isKnown (t : Tag) : Bool :=
  documentedTags.contains t.name || ignoredTags.contains t.name

namespace DocBlock

def tagsNamed (b : DocBlock) (name : Text) : List Tag :=
  b.tags.filter (·.name = name)

def tag? (b : DocBlock) (name : Text) : Option Tag :=
  b.tags.find? (·.name = name)

def addText (b : DocBlock) (line : Text) : DocBlock :=
  { b with text := b.text ++ [line] }

def addUsage (b : DocBlock) (line : Text) : DocBlock :=
  { b with usage := some (b.usage.getD [] ++ [line]) }

def addTag (b : DocBlock) (t : Tag) : DocBlock :=
  { b with tags := b.tags ++ [t] }

/-- A usage section begins with the operand of its tag, and drops the section before it. -/
def openUsage (b : DocBlock) (operand : Text) : DocBlock :=
  { b with usage := some (if operand.isEmpty then [] else [operand]) }

/-- The first paragraph in one line, and the text behind it. -/
def descriptions (b : DocBlock) : Text × Text :=
  let lines := (b.text.map Text.trimEnd).dropWhile Text.isBlankLine
  (Text.join [' '] ((lines.takeWhile (!Text.isBlankLine ·)).map Text.trim),
    Text.trim (Text.join ['\n'] (lines.dropWhile (!Text.isBlankLine ·))))

def visibilityOfTag? (t : Tag) : Option Visibility :=
  if t.name = "private".toList then some .priv
  else if t.name = "protected".toList then some .prot
  else if t.name = "public".toList then some .pub
  else none

/-- The visibility that the last visibility tag gives. -/
def visibility? (b : DocBlock) : Option Visibility :=
  b.tags.reverse.findSome? visibilityOfTag?

/-- The usage sample, unless it is blank. -/
def usageSample? (b : DocBlock) : Option Text :=
  match b.usage with
  | none => none
  | some lines =>
    let sample := Text.unindent (Text.join ['\n'] lines)
    if sample.isEmpty then none else some sample

end DocBlock

end ApiManual.DocComment
