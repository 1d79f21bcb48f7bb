import ApiManual.Text.Basic

/-!
# Indentation

`Text.unindent` takes the indentation that all lines share off each of them.  Blank
lines have no say in it; they become empty, and those at either end disappear.
-/

namespace ApiManual.Text

/-- The number of blanks in front of a line. -/
def indent (line : Text) : Nat :=
  (line.takeWhile isBlank).length

/-- The indentation shared by all lines that are not blank. -/
def commonIndent (lines : List Text) : Nat :=
  (((lines.filter (!isBlankLine ·)).map indent).min?).getD 0

def unindent (s : Text) : Text :=
  let lines := (s.splitOn '\n').dropWhile isBlankLine
  let shared := commonIndent lines
  trimEnd (join ['\n'] (lines.map fun line => trimEnd (line.drop shared)))

end ApiManual.Text
