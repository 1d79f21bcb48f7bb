import ApiManual.Page
import ApiManual.Site.Address

/-!
# The pages of a site

All modules of a site share one index, so that any page can link to any other.
-/

namespace ApiManual.Site

/-- A documented module and the path of its source below the source root. -/
structure Source where
  path : Text
  doc : ModuleDoc
  deriving Inhabited

def Source.url (baseUrl : Text) (s : Source) : Text :=
  pageUrl baseUrl s.path

def indexOf (baseUrl : Text) (sources : List Source) : Symbol.Index :=
  .ofModules (sources.map fun s => (s.doc, s.url baseUrl))

/-- The path below the output root and the text of each page. -/
def pages (baseUrl : Text) (sources : List Source) : List (Text × Text) :=
  let index := indexOf baseUrl sources
  sources.map fun s => (docPath s.path, Page.text index s.doc)

end ApiManual.Site
