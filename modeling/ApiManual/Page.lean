import ApiManual.Symbol.Link
import ApiManual.Markdown

/-!
# Manual pages

The page of a module as a Markdown document.  A plain module has sections for its
enumerations, functions and classes; a class module is shown as its first class, under
the name of the module.  Nothing private is shown.  Descriptions and the types in
tables carry links; headings, signatures, usage samples and default values do not.
-/

namespace ApiManual.Page

open ApiManual.Markdown ApiManual.Symbol

/-- The texts joined by commas, in round brackets unless there is exactly one. -/
def typeList : List Text → Text
  | [one] => one
  | several => "(".toList ++ Text.join ", ".toList several ++ ")".toList

/-- A type as it is shown.  Booleans are shown as `string`. -/
def typeText (index : Index) (mode : LinkMode) : LuaType → Text
  | .any => "any".toList
  | .string => "string".toList
  | .boolean => "string".toList
  | .named name => index.substitute mode name
  | .function id => index.substitute mode id
  | .callable args returns =>
    "function(".toList ++ Text.join ", ".toList (args.map (typeText index mode)) ++
      "):".toList ++ typeList (returns.map (typeText index mode))

def linked (index : Index) (text : Text) : Document :=
  paragraph (index.link text)

def title (index : Index) (text : Text) : Block :=
  .bold (index.link text)

def codeSpan (text : Text) : Text :=
  "<code>".toList ++ text ++ "</code>".toList

def backticked (text : Text) : Text :=
  '`' :: text ++ ['`']

def linkedType (index : Index) (type : LuaType) : Text :=
  codeSpan (typeText index .link type)

def signatureReturns (index : Index) (returns : List ReturnDoc) : Text :=
  if returns.isEmpty then
    "nil".toList
  else
    typeList (returns.map fun r => typeText index .plain r.type)

/-- `function scope:name(a: T, b: U) -> R`, without link markup. -/
def signature (index : Index) (scope : Text) (f : FunctionDoc) : Text :=
  let params := f.params.map fun p =>
    p.name ++ ": ".toList ++ typeText index .plain p.type
  "function ".toList ++ scope ++ f.name ++ "(".toList ++ Text.join ", ".toList params ++
    ") -> ".toList ++ signatureReturns index f.returns

/-- A required parameter is marked with a star. -/
def paramRow (index : Index) (p : ParamDoc) : List Text :=
  [if p.optional then backticked p.name else backticked p.name ++ ['*'],
    linkedType index p.type, index.link p.details, p.defaultValue.getD []]

def returnRow (index : Index) (r : ReturnDoc) : List Text :=
  [linkedType index r.type, index.link r.details]

def paramTable (index : Index) (params : List ParamDoc) : Block :=
  .table ["Parameter".toList, "Type".toList, "Description".toList, "Default value".toList]
    [.left, .left, .left, .center] (params.map (paramRow index))

def returnTable (index : Index) (returns : List ReturnDoc) : Block :=
  .table ["Type".toList, "Description".toList] [.left, .left] (returns.map (returnRow index))

def luaCode (text : Text) : Block :=
  .code "lua".toList text

/-- The section of a function, whatever its visibility. -/
def functionSection (index : Index) (scope : Text) (level : Nat) (f : FunctionDoc) :
    Document :=
  [.heading level (f.name ++ "()".toList), title index "Signature".toList] ++
  linked index f.summary ++
  [luaCode (signature index scope f), paramTable index f.params] ++
  (if f.returns.isEmpty then [] else [returnTable index f.returns]) ++
  (if f.details.isEmpty then []
    else title index "Notes".toList :: linked index f.details) ++
  (match f.usage with
    | none => []
    | some usage => [title index "Usage".toList, luaCode usage]) ++
  [.rule]

/-- A heading and the sections of all functions that are not private, or nothing where
all are. -/
def functionSections (index : Index) (scope : Text) (level : Nat)
    (functions : List FunctionDoc) : Document :=
  let shown := functions.filter (!·.isPrivate)
  if shown.isEmpty then
    []
  else
    .heading level "Methods".toList :: shown.flatMap (functionSection index scope (level + 1))

def fieldItem (index : Index) (f : FieldDoc) : Text :=
  let type :=
    match f.type with
    | none => []
    | some type => " (".toList ++ linkedType index type ++ ")".toList
  let details := if f.details.isEmpty then [] else ": ".toList ++ index.link f.details
  "- ".toList ++ backticked f.name ++ type ++ details

def fieldSection (index : Index) (level : Nat) (fields : List FieldDoc) : Document :=
  let shown := fields.filter (!·.isPrivate)
  if shown.isEmpty then
    []
  else
    .heading level "Fields".toList ::
      paragraph (Text.join ['\n'] (shown.map (fieldItem index)))

def memberTable (index : Index) (members : List FieldDoc) : Block :=
  .table ["Member".toList, "Description".toList] [.left, .left]
    (members.map fun f => [backticked f.name, index.link f.details])

def enumSection (index : Index) (level : Nat) (c : ClassDoc) : Document :=
  .heading level c.name :: linked index c.summary ++ linked index c.details ++
    [memberTable index c.fields]

/-- The section of a class.  The methods are shown in the scope of the class's own name,
whatever name stands in the heading. -/
def classSection (index : Index) (level : Nat) (heading summary details : Text)
    (c : ClassDoc) : Document :=
  .heading level heading :: linked index summary ++ linked index details ++
    fieldSection index (level + 1) c.fields ++
    functionSections index (c.name ++ [':']) (level + 1) c.methods

def orElse (preferred fallback : Text) : Text :=
  if preferred.isEmpty then fallback else preferred

/-- The page of a class module prefers the module's own descriptions. -/
def classModulePage (index : Index) (m : ModuleDoc) (c : ClassDoc) : Document :=
  classSection index 1 m.name (orElse m.summary c.summary) (orElse m.details c.details) c

def enumSections (index : Index) (classes : List ClassDoc) : Document :=
  let enums := classes.filter (·.isEnum)
  if enums.isEmpty then
    []
  else
    .heading 2 "Enums".toList :: enums.flatMap (enumSection index 3)

def classSections (index : Index) (classes : List ClassDoc) : Document :=
  let plain := classes.filter (!·.isEnum)
  if plain.isEmpty then
    []
  else
    .heading 2 "Classes".toList ::
      plain.flatMap fun c => classSection index 3 c.name c.summary c.details c

def plainModulePage (index : Index) (m : ModuleDoc) : Document :=
  .heading 1 m.name :: linked index m.summary ++ linked index m.details ++ [.rule] ++
    enumSections index m.classes ++
    functionSections index [] 2 m.functions ++
    classSections index m.classes

def ofModule (index : Index) (m : ModuleDoc) : Document :=
  match m.primaryClass? with
  | some c => classModulePage index m c
  | none => plainModulePage index m

def text (index : Index) (m : ModuleDoc) : Text :=
  (ofModule index m).render

end ApiManual.Page
