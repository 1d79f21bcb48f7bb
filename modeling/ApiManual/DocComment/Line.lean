import ApiManual.Text.Basic

/-!
# Source lines

What a line of source means to the reader of annotations.  A line of four or more
dashes separates paragraphs, a line that starts with three dashes is a doc line and
carries a tag or a piece of text, and all other lines are code or a gap: nothing, or
an ordinary comment.
-/

namespace ApiManual.DocComment

inductive SourceLine
  | separator
  | tag (name operand : Text)
  | text (content : Text)
  | gap
  | code (line : Text)
  deriving DecidableEq, Inhabited

def isSeparator (line : Text) : Bool :=
  let rest := Text.skipBlanks line
  4 ≤ (rest.takeWhile (· = '-')).length &&
    (rest.dropWhile (· = '-')).all Text.isBlank

def dropBlank : Text → Text
  | c :: rest => if Text.isBlank c then rest else c :: rest
  | [] => []

/-- The content of a doc line, without the one blank that may follow the dashes. -/
def docContent? (line : Text) : Option Text :=
  (Text.dropPrefix? "---".toList (Text.skipBlanks line)).map dropBlank

def isTagChar (c : Char) : Bool :=
  c.isAlpha || c = '_'

/-- The name and the operand of a tag. -/
def tag? (content : Text) : Option (Text × Text) :=
  match Text.trim content with
  | '@' :: rest =>
    let name := rest.takeWhile isTagChar
    match name, rest.dropWhile isTagChar with
    | [], _ => none
    | _, [] => some (name, [])
    | _, c :: operand => if Text.isBlank c then some (name, Text.trim operand) else none
  | _ => none

/-- Whether a line that is no doc line is blank or an ordinary comment. -/
def isGap (line : Text) : Bool :=
  let trimmed := Text.trim line
  trimmed.isEmpty || "--".toList.isPrefixOf trimmed

def SourceLine.ofText (line : Text) : SourceLine :=
  if isSeparator line then
    .separator
  else
    match docContent? line with
    | some content =>
      match tag? content with
      | some (name, operand) => .tag name operand
      | none => .text content
    | none => if isGap line then .gap else .code line

end ApiManual.DocComment
