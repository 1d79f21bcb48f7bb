import ApiManual.Doc
import ApiManual.Unicode.Lowercase

/-!
# The symbol index

Every module, class, method, enumeration member and free function of a run is
registered here under its qualified name, together with the place it is described at.
A name keeps its first registration.  The finished index holds long names before short
ones, and names of equal length in the order of registration, so that whoever goes
through it meets `Mod.Class.method` before `Mod.Class`.
-/

namespace ApiManual

namespace Symbol

structure Entry where
  /-- The qualified name, such as `ui.Widget.resize`. -/
  symbol : Text
  /-- The text shown in a link. -/
  display : Text
  /-- Where the link leads. -/
  anchor : Text
  deriving DecidableEq, Inhabited

/-- The fragment under which a page describes a name. -/
def fragment (name : Text) : Text :=
  Text.lowercase name

def qualify (scope name : Text) : Text :=
  scope ++ '.' :: name

/-- The entry of a name that has a place of its own on a page. -/
def Entry.onPage (page symbol display place : Text) : Entry :=
  ⟨symbol, display, page ++ "/#".toList ++ fragment place⟩

/-- The entries registered so far, in order. -/
structure Registry where
  entries : List Entry := []
  deriving Inhabited

namespace Registry

def contains (r : Registry) (symbol : Text) : Bool :=
  r.entries.any (·.symbol = symbol)

def register (r : Registry) (e : Entry) : Registry :=
  if r.contains e.symbol then r else ⟨r.entries ++ [e]⟩

def addMethod (page classSymbol : Text) (r : Registry) (f : FunctionDoc) : Registry :=
  r.register (.onPage page (qualify classSymbol f.name) f.name f.name)

/-- The members of an enumeration are described in the table of the enumeration. -/
def addMember (page classSymbol className : Text) (r : Registry) (f : FieldDoc) : Registry :=
  r.register (.onPage page (qualify classSymbol f.name) (qualify className f.name) className)

def addClass (page moduleName : Text) (r : Registry) (c : ClassDoc) : Registry :=
  let symbol := qualify moduleName c.name
  let r := r.register (.onPage page symbol c.name c.name)
  let r := c.methods.foldl (addMethod page symbol) r
  if c.isEnum then c.fields.foldl (addMember page symbol c.name) r else r

def addFunction (page moduleName : Text) (r : Registry) (f : FunctionDoc) : Registry :=
  r.register (.onPage page (qualify moduleName f.name) f.name f.name)

/-- Registers all names of a module that is described on `page`. -/
def addModule (r : Registry) (m : ModuleDoc) (page : Text) : Registry :=
  let r := r.register ⟨m.name, m.name, page⟩
  let r := m.classes.foldl (addClass page m.name) r
  m.functions.foldl (addFunction page m.name) r

end Registry

/-- Long names come first. -/
def Entry.before (a b : Entry) : Bool :=
  Text.byteLength b.symbol ≤ Text.byteLength a.symbol

/-- The entries of a run, each name once and long names first. -/
structure Index where
  entries : List Entry := []
  deriving Inhabited

def Registry.finish (r : Registry) : Index :=
  ⟨r.entries.mergeSort Entry.before⟩

def Index.ofModules (modules : List (ModuleDoc × Text)) : Index :=
  (modules.foldl (fun r (m, page) => r.addModule m page) ({} : Registry)).finish

end Symbol

end ApiManual
