import ApiManual.Symbol.Index
import ApiManual.Text.Replace

/-!
# Links in free text

Names of the index that occur in a text are replaced by links, or by their display
names where a text stands in a code span or block.  The index is gone through from its
first entry to its last and every occurrence counts, inside longer words too; a later
entry also sees what earlier ones have put in.
-/

namespace ApiManual.Symbol

inductive LinkMode
  | link
  | plain
  deriving DecidableEq, Inhabited

/-- What a name is replaced by. -/
def Entry.replacement (mode : LinkMode) (e : Entry) : Text :=
  match mode with
  | .link =>
    "<a href=\"".toList ++ e.anchor ++ "\">".toList ++ e.display ++ "</a>".toList
  | .plain => e.display

def Entry.substitute (mode : LinkMode) (e : Entry) (text : Text) : Text :=
  Text.replace e.symbol (e.replacement mode) text

def Index.substitute (index : Index) (mode : LinkMode) (text : Text) : Text :=
  index.entries.foldl (fun text e => e.substitute mode text) text

def Index.link (index : Index) (text : Text) : Text :=
  index.substitute .link text

end ApiManual.Symbol
