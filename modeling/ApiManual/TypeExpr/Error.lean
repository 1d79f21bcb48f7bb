import ApiManual.Text.Basic

/-!
# Faults of type expressions
-/

namespace ApiManual

inductive TypeError
  | empty
  /-- The expression ends before this text. -/
  | unexpected (text : Text)
  | unbalanced
  | unterminated
  | missing
  deriving DecidableEq, Inhabited

def TypeError.message : TypeError → Text
  | .empty => "empty type".toList
  | .unexpected text => "unexpected `".toList ++ text ++ "`".toList
  | .unbalanced => "unbalanced brackets".toList
  | .unterminated => "unterminated string literal".toList
  | .missing => "expected a type".toList

end ApiManual
