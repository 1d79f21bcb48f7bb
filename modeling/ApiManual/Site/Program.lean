import ApiManual.Glob.Walk
import ApiManual.Site.Generate

/-!
# The run of the program

The program searches a file tree with the walk of `Glob`.  What is known of runs holds for
any walk that has certain properties, and this is one of them.
-/

namespace ApiManual

/-- A walk that cannot come to its end yields nothing else. -/
def Glob.walk : Site.Walk where
  escape := escape
  entries? t text :=
    (PathPattern.ofText? text).map fun pattern =>
      match walk? t pattern with
      | some found => found.map some
      | none => [none]

namespace Site

def generate (t : FileTree) (c : Config) : Except Failure Nat × FileTree :=
  generateWith Glob.walk t c

end Site
end ApiManual
