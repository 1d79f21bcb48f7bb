import ApiManual.Text.Basic

/-!
# Lines

A line ends at a line feed or at the end of the text.  A carriage return directly
before a line feed belongs to the line's end, and a line feed at the very end of the
text opens no further line.
-/

namespace ApiManual.Text

def dropCarriageReturn (line : Text) : Text :=
  if line.getLast? = some '\r' then line.dropLast else line

/-- The lines of a text, given what stands between its line feeds. -/
def linesOfPieces : List Text → List Text
  | [] => []
  | [last] => if last.isEmpty then [] else [last]
  | piece :: rest => dropCarriageReturn piece :: linesOfPieces rest

def lines (s : Text) : List Text :=
  linesOfPieces (s.splitOn '\n')

end ApiManual.Text
