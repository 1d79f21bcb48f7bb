import ApiManual.Text.Basic

/-!
# Replacement

All occurrences of a text are replaced from left to right, and none overlaps the one
before it.  The empty text occurs at both ends and between every two characters.
-/

namespace ApiManual.Text

/-- Replaces the occurrences of `old`, after `skip` characters that belong to an
occurrence already replaced. -/
def replaceFrom (old new : Text) : Nat → Text → Text
  | _, [] => []
  | skip + 1, _ :: rest => replaceFrom old new skip rest
  | 0, c :: rest =>
    if old.isPrefixOf (c :: rest) then
      new ++ replaceFrom old new (old.length - 1) rest
    else
      c :: replaceFrom old new 0 rest

def replace (old new s : Text) : Text :=
  if old.isEmpty then
    new ++ s.flatMap fun c => c :: new
  else
    replaceFrom old new 0 s

end ApiManual.Text
