import ApiManual.Path

/-!
# Addresses of pages

Where the page of a source is written, and the URL it is reached under.  Both follow
the path of the source below the source root.
-/

namespace ApiManual.Site

/-- The path of a page below the output root. -/
def docPath (source : Text) : Text :=
  Path.withExtension source "md".toList

def normalName? : Path.Component → Option Text
  | .normal name => some name
  | _ => none

def pageUrl (baseUrl source : Text) : Text :=
  let names := (Path.components (Path.withExtension source [])).filterMap normalName?
  Text.dropEndWhile (· = '/') baseUrl ++ '/' :: Text.join ['/'] names

end ApiManual.Site
