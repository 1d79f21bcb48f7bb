import ApiManual.DocComment.Line
import ApiManual.DocComment.Operand
import ApiManual.Proofs.TypeExpr.RoundTrip

/-!
# Printing annotated sources

The converse of reading: a documented module is written as an annotated source.  Each
entity is a block of doc lines, functions with their declaration directly below and
everything else with an empty line below.  The second half says which modules are in the
form that reading gives back.
-/

namespace ApiManual
namespace DocComment

open Text

/-! ## Lines -/

def textLine (line : Text) : Text :=
  if line.isEmpty then ['-', '-', '-'] else '-' :: '-' :: '-' :: ' ' :: line

/-- A text with a second one behind it, unless that is empty. -/
def followedBy (front behind : Text) : Text :=
  if behind.isEmpty then front else front ++ ' ' :: behind

def tagLine (name operand : Text) : Text :=
  '-' :: '-' :: '-' :: '@' :: followedBy name operand

/-- A doc block before it is printed: its description, its tags with their operands, and
its usage sample. -/
structure Preamble where
  text : List Text
  tags : List (Text × Text)
  usage : Option (List Text) := none

def Preamble.usageTags (a : Preamble) : List (Text × Text) :=
  if a.usage.isSome then [("usage".toList, [])] else []

def Preamble.lines (a : Preamble) : List Text :=
  a.text.map textLine ++ (a.tags ++ a.usageTags).map (fun (name, operand) => tagLine name operand) ++
    (a.usage.getD []).map textLine

/-! ## Operands -/

def descriptionLines (summary details : Text) : List Text :=
  if summary.isEmpty then []
  else summary :: if details.isEmpty then [] else [] :: details.splitOn '\n'

def visibilityWord : Visibility → Text
  | .pub => "public".toList
  | .prot => "protected".toList
  | .priv => "private".toList

/-- What stands behind the name of an optional parameter. -/
def paramMark (p : ParamDoc) : Text :=
  match p.defaultValue with
  | some value => '=' :: value
  | none => if p.optional then ['?'] else []

def typeOperand (type : LuaType) (details : Text) : Text :=
  followedBy type.text details

def paramOperand (p : ParamDoc) : Text :=
  p.name ++ (paramMark p ++ ' ' :: typeOperand p.type p.details)

def returnOperand (r : ReturnDoc) : Text :=
  typeOperand r.type r.details

def fieldOperand (f : FieldDoc) : Text :=
  visibilityWord f.visibility ++ ' ' ::
    match f.type with
    | some t => f.name ++ ' ' :: typeOperand t f.details
    | none => followedBy f.name f.details

/-! ## Entities -/

def functionPreamble (f : FunctionDoc) : Preamble where
  text := descriptionLines f.summary f.details
  tags :=
    f.params.map (fun p => ("param".toList, paramOperand p)) ++
      (f.returns.map (fun r => ("return".toList, returnOperand r)) ++
        [(visibilityWord f.visibility, [])])
  usage := f.usage.map (·.splitOn '\n')

/-- The path of a function, below its class if it has one. -/
def functionPath (owner : Option Text) (name : Text) : Text :=
  match owner with
  | some owner => owner ++ '.' :: name
  | none => name

def declarationLine (owner : Option Text) (f : FunctionDoc) : Text :=
  "function".toList ++ ' ' ::
    (functionPath owner f.name ++ '(' :: (join [',', ' '] (f.params.map ParamDoc.name) ++ [')']))

def functionLines (owner : Option Text) (f : FunctionDoc) : List Text :=
  (functionPreamble f).lines ++ [declarationLine owner f]

def classWord (isEnum : Bool) : Text :=
  if isEnum then "enum".toList else "class".toList

def classPreamble (c : ClassDoc) : Preamble where
  text := descriptionLines c.summary c.details
  tags :=
    (classWord c.isEnum, c.name) :: c.fields.map fun f => ("field".toList, fieldOperand f)

def classLines (c : ClassDoc) : List Text :=
  ((classPreamble c).lines ++ [[]]) ++ c.methods.flatMap (functionLines (some c.name))

def moduleWord (isClassModule : Bool) : Text :=
  if isClassModule then "classmod".toList else "module".toList

def modulePreamble (m : ModuleDoc) : Preamble where
  text := descriptionLines m.summary m.details
  tags := [(moduleWord m.isClassModule, m.name)]

def moduleLines (m : ModuleDoc) : List Text :=
  ((modulePreamble m).lines ++ [[]]) ++
    (m.classes.flatMap classLines ++ m.functions.flatMap (functionLines none))

/-- A documented module as an annotated source. -/
def printModule (m : ModuleDoc) : Text :=
  (moduleLines m).flatMap (· ++ ['\n'])

/-! ## Modules in normal form -/

/-- A line that stands for itself in a description or a usage sample. -/
structure PlainLine (line : Text) : Prop where
  oneLine : '\n' ∉ line
  trimmedEnd : trimEnd line = line
  noTag : tag? line = none

instance (line : Text) : Decidable (PlainLine line) :=
  decidable_of_iff ('\n' ∉ line ∧ trimEnd line = line ∧ tag? line = none)
    ⟨fun ⟨hline, htrim, htag⟩ => ⟨hline, htrim, htag⟩,
      fun h => ⟨h.oneLine, h.trimmedEnd, h.noTag⟩⟩

structure DescriptionForm (summary details : Text) : Prop where
  summaryTrimmed : Trimmed summary
  summaryLine : PlainLine summary
  detailsTrimmed : Trimmed details
  detailsLines : ∀ line ∈ details.splitOn '\n', PlainLine line
  summaryFirst : summary = [] → details = []

/-- A description behind a tag. -/
structure DetailsForm (details : Text) : Prop where
  trimmed : Trimmed details
  oneLine : '\n' ∉ details
  noSign : details.head? ≠ some '#'

instance (details : Text) : Decidable (DetailsForm details) :=
  decidable_of_iff (Trimmed details ∧ '\n' ∉ details ∧ details.head? ≠ some '#')
    ⟨fun ⟨htrimmed, hline, hsign⟩ => ⟨htrimmed, hline, hsign⟩,
      fun h => ⟨h.trimmed, h.oneLine, h.noSign⟩⟩

/-- A type with its description behind it. -/
structure TypeForm (type : LuaType) (details : Text) : Prop where
  wellFormed : TypeExpr.WellFormed type
  oneLine : '\n' ∉ type.text
  behind : DetailsForm details
  separate : TypeExpr.Separate type.text details

structure Identifier (s : Text) : Prop where
  start : startsIdentifier s
  word : ∀ c ∈ s, Unicode.isWord c

instance (s : Text) : Decidable (Identifier s) :=
  decidable_of_iff (startsIdentifier s ∧ s.all Unicode.isWord)
    ⟨fun ⟨hstart, hword⟩ => ⟨hstart, List.all_eq_true.mp hword⟩,
      fun h => ⟨h.start, List.all_eq_true.mpr h.word⟩⟩

/-- Identifiers with dots between them. -/
def Dotted (path : Text) : Prop :=
  ∀ part ∈ path.splitOn '.', Identifier part

instance (path : Text) : Decidable (Dotted path) :=
  inferInstanceAs (Decidable (∀ part ∈ path.splitOn '.', Identifier part))

structure ParamForm (p : ParamDoc) : Prop where
  name : p.name = "...".toList ∨ Identifier p.name
  notSelf : p.name ≠ "self".toList
  type : TypeForm p.type p.details
  /-- The mark of an optional parameter stands behind its name. -/
  unmarked : p.type.text.getLast? ≠ some '?'
  default : ∀ value ∈ p.defaultValue, value ≠ [] ∧ IsWord value ∧ p.optional

/-- A sample without blank lines at its ends and without indentation of the whole. -/
structure UsageForm (sample : Text) : Prop where
  lines : ∀ line ∈ sample.splitOn '\n', PlainLine line
  first : ∀ line ∈ (sample.splitOn '\n').head?, isBlankLine line = false
  last : ∀ line ∈ (sample.splitOn '\n').getLast?, isBlankLine line = false
  flush : ∃ line ∈ sample.splitOn '\n', isBlankLine line = false ∧ indent line = 0

structure FunctionForm (f : FunctionDoc) : Prop where
  name : Identifier f.name
  description : DescriptionForm f.summary f.details
  params : ∀ p ∈ f.params, ParamForm p
  returns : ∀ r ∈ f.returns, TypeForm r.type r.details
  usage : ∀ sample ∈ f.usage, UsageForm sample

/-- The members of an enumeration have no type, and a field has a description only behind
its type. -/
structure FieldForm (isEnum : Bool) (f : FieldDoc) : Prop where
  named : f.name ≠ []
  word : IsWord f.name
  unmarked : 2 ≤ f.name.length → f.name.getLast? ≠ some '?'
  untyped : isEnum → f.type = none
  details : DetailsForm f.details
  type : ∀ t ∈ f.type, TypeForm t f.details
  typeFirst : isEnum = false → f.type = none → f.details = []

structure ClassForm (c : ClassDoc) : Prop where
  name : Dotted c.name
  description : DescriptionForm c.summary c.details
  fields : ∀ f ∈ c.fields, FieldForm c.isEnum f
  methods : ∀ f ∈ c.methods, FunctionForm f

structure ModuleForm (m : ModuleDoc) : Prop where
  named : m.name ≠ []
  word : IsWord m.name
  description : DescriptionForm m.summary m.details
  classes : ∀ c ∈ m.classes, ClassForm c
  functions : ∀ f ∈ m.functions, FunctionForm f
  classFirst : m.isClassModule → m.classes ≠ []

end DocComment
end ApiManual
