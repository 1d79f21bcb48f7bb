import ApiManual.TypeExpr.Error

/-!
# Faults of annotations
-/

namespace ApiManual.DocComment

/-- What an operand lacks. -/
inductive Missing
  | name
  | type
  deriving DecidableEq, Inhabited

def Missing.text : Missing → Text
  | .name => "a name".toList
  | .type => "a type".toList

inductive Fault
  | unknownTag (line : Nat) (tag : Text)
  | missingOperand (line : Nat) (tag : Text) (what : Missing)
  | fieldOutsideClass (line : Nat)
  | malformedType (line : Nat) (text : Text) (reason : TypeError)
  | classModuleWithoutClass (name : Text)
  deriving DecidableEq, Inhabited

/-- The place that a message starts with: the path as it was given, and the line. -/
def place (path : Text) (line : Nat) : Text :=
  path ++ ":".toList ++ Text.ofNat line ++ ": ".toList

def Fault.message (path : Text) : Fault → Text
  | .unknownTag line tag => place path line ++ "unknown tag @".toList ++ tag
  | .missingOperand line tag what =>
    place path line ++ "@".toList ++ tag ++ " is missing ".toList ++ what.text
  | .fieldOutsideClass line =>
    place path line ++ "@field outside of a @class or @enum block".toList
  | .malformedType line text reason =>
    place path line ++ "malformed type `".toList ++ text ++ "`: ".toList ++ reason.message
  | .classModuleWithoutClass name =>
    path ++ ": @classmod ".toList ++ name ++ " declares no @class".toList

end ApiManual.DocComment
