import ApiManual.Text.Replace

/-!
# Markdown documents

A document is a list of blocks.  Printed, the blocks are separated by one empty line
each, and the document ends with a line feed unless it is empty.
-/

namespace ApiManual.Markdown

inductive Align
  | left
  | center
  | right
  deriving DecidableEq, Inhabited

def Align.marker : Align → Text
  | .left => ":---".toList
  | .center => ":---:".toList
  | .right => "---:".toList

inductive Block
  | heading (level : Nat) (text : Text)
  /-- Text that stands as it is. -/
  | raw (text : Text)
  | bold (text : Text)
  | table (headers : List Text) (align : List Align) (rows : List (List Text))
  | code (language text : Text)
  | rule
  deriving DecidableEq, Inhabited

abbrev Document := List Block

/-- A text without the whitespace at its end; a blank text makes no block. -/
def paragraph (text : Text) : Document :=
  let text := Text.trimEnd text
  if text.isEmpty then [] else [.raw text]

/-- A cell stands in one line, and its bars are told apart from the bars of the table. -/
def escapeCell (text : Text) : Text :=
  let text := Text.replace ['|'] ['\\', '|'] (Text.trim text)
  let text := Text.replace ['\r', '\n'] "<br>".toList text
  Text.replace ['\n'] "<br>".toList text

def tableRow (cells : List Text) : Text :=
  "| ".toList ++ Text.join " | ".toList cells ++ " |".toList

/-- A row has one cell for each header: short rows are filled up, long ones are cut. -/
def rowCells (width : Nat) (row : List Text) : List Text :=
  (List.range width).map fun i => escapeCell (row[i]?.getD [])

def alignCells (width : Nat) (align : List Align) : List Text :=
  (List.range width).map fun i => (align[i]?.getD .left).marker

/-- The levels of headings go from one to six. -/
def headingLevel (level : Nat) : Nat :=
  max 1 (min level 6)

def Block.render : Block → Text
  | .heading level text => List.replicate (headingLevel level) '#' ++ ' ' :: text
  | .raw text => text
  | .bold text => "**".toList ++ text ++ "**".toList
  | .table headers align rows =>
    Text.join ['\n']
      (tableRow (headers.map escapeCell) :: tableRow (alignCells headers.length align) ::
        rows.map fun row => tableRow (rowCells headers.length row))
  | .code language text =>
    "```".toList ++ language ++ ['\n'] ++ Text.dropEndWhile (· = '\n') text ++
      "\n```".toList
  | .rule => "***".toList

def Document.render (document : Document) : Text :=
  if document.isEmpty then
    []
  else
    Text.join ['\n', '\n'] (document.map Block.render) ++ ['\n']

end ApiManual.Markdown
