import ApiManual.DocComment.Fault

/-!
# Failures of a run
-/

namespace ApiManual.Site

inductive Failure
  | noSourceRoot (root : Text)
  | badPattern (pattern : Text)
  | unscannable
  | unreadable (path : Text)
  | malformed (path : Text) (fault : DocComment.Fault)
  | outsideRoot (path root : Text)
  | noDirectory (path : Text)
  | unwritable (path : Text)
  deriving DecidableEq, Inhabited

def Failure.message : Failure → Text
  | .noSourceRoot root => "source directory not found: ".toList ++ root
  | .badPattern pattern => "invalid glob pattern: ".toList ++ pattern
  | .unscannable => "failed to scan source directory".toList
  | .unreadable path => "failed to read ".toList ++ path
  | .malformed path fault => fault.message path
  | .outsideRoot path root => path ++ " is not under ".toList ++ root
  | .noDirectory path => "failed to create directory: ".toList ++ path
  | .unwritable path => "failed to write ".toList ++ path

end ApiManual.Site
