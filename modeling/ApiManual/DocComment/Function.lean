import ApiManual.DocComment.Operand

/-!
# Documented functions

A function is put together from the block above it and from its declaration.
-/

namespace ApiManual.DocComment

/-- The parameters of a function: one for each argument, documented by the first
documentation of its name that is not yet used, then the documentation left over. -/
def mergeParams : List Text → List ParamDoc → List ParamDoc
  | [], documented => documented
  | arg :: args, documented =>
    match documented.find? (·.name = arg) with
    | some p => p :: mergeParams args (documented.eraseP (·.name = arg))
    | none => { name := arg } :: mergeParams args documented

def functionDoc (b : DocBlock) (name : Text) (args : List Text) (isLocal : Bool) :
    Except Fault FunctionDoc := do
  let (summary, details) := b.descriptions
  let documented ← (b.tagsNamed "param".toList).mapM paramDoc
  let returns ← (b.tagsNamed "return".toList).mapM returnDoc
  return {
    name, summary, details, returns
    params := mergeParams args documented
    usage := b.usageSample?
    visibility := b.visibility?.getD (if isLocal then .priv else .pub) }

end ApiManual.DocComment
