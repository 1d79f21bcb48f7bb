import ApiManual.Text.Basic

/-!
# Documented entities

What a manual page is about: a module with its functions and classes, and the types
that appear in their annotations.
-/

namespace ApiManual

/-- A type in an annotation.  Only the shapes that a page shows differently are told
apart; every other expression, such as `number`, `string[]` or `A|B`, is kept by name. -/
inductive LuaType
  | any
  | string
  | boolean
  | named (name : Text)
  /-- A function known by an identifier only. -/
  | function (id : Text)
  | callable (args returns : List LuaType)
  deriving Inhabited

inductive Visibility
  | pub
  | prot
  | priv
  deriving DecidableEq, Inhabited

structure ParamDoc where
  name : Text
  type : LuaType := .any
  details : Text := []
  optional : Bool := false
  /-- The default value, as it is written in the annotation. -/
  defaultValue : Option Text := none
  deriving Inhabited

structure ReturnDoc where
  type : LuaType
  details : Text := []
  deriving Inhabited

structure FunctionDoc where
  name : Text
  /-- The first paragraph of the description. -/
  summary : Text := []
  details : Text := []
  params : List ParamDoc := []
  returns : List ReturnDoc := []
  usage : Option Text := none
  visibility : Visibility := .pub
  deriving Inhabited

/-- A data member of a class, or a member of an enumeration. -/
structure FieldDoc where
  name : Text
  type : Option LuaType := none
  details : Text := []
  visibility : Visibility := .pub
  deriving Inhabited

structure ClassDoc where
  name : Text
  summary : Text := []
  details : Text := []
  fields : List FieldDoc := []
  methods : List FunctionDoc := []
  isEnum : Bool := false
  deriving Inhabited

structure ModuleDoc where
  name : Text
  summary : Text := []
  details : Text := []
  functions : List FunctionDoc := []
  classes : List ClassDoc := []
  /-- The page of a class module is the page of its first class. -/
  isClassModule : Bool := false
  deriving Inhabited

def FunctionDoc.isPrivate (f : FunctionDoc) : Bool :=
  f.visibility = .priv

def FieldDoc.isPrivate (f : FieldDoc) : Bool :=
  f.visibility = .priv

/-- The class that a class module stands for. -/
def ModuleDoc.primaryClass? (m : ModuleDoc) : Option ClassDoc :=
  if m.isClassModule then m.classes.head? else none

end ApiManual
