import ApiManual.DocComment.Reading
import Mathlib.Data.List.Induction
import Mathlib.Data.List.TakeWhile
import Mathlib.Tactic.Common

/-!
# Sources in block form

A source read in two steps: first all its lines are cut into blocks, then the blocks
are attached one after the other.  The block form says where a block begins and ends,
what belongs to it, and which declaration it stands above, without any state that is
carried from line to line.
-/

namespace ApiManual
namespace DocComment

/-- A line of source with its number. -/
abbrev PlacedLine := SourceLine × ℕ

def placedLines (source : Text) : List PlacedLine :=
  (numberedLines source).map fun (line, n) => (SourceLine.ofText line, n)

def SourceLine.isTag : SourceLine → Bool
  | .tag .. => true
  | _ => false

def SourceLine.isDoc : SourceLine → Bool
  | .tag .. => true
  | .text _ => true
  | _ => false

def SourceLine.isCode : SourceLine → Bool
  | .code _ => true
  | _ => false

/-- Whether a block goes on with this line. -/
def SourceLine.isInner : SourceLine → Bool
  | .separator => true
  | l => l.isDoc

/-- The content of a doc line without a tag. -/
def SourceLine.content? : SourceLine → Option Text
  | .text content => some content
  | _ => none

/-- The empty line of description that a separator stands for. -/
def SourceLine.break? : SourceLine → Option Text
  | .separator => some []
  | _ => none

def SourceLine.description? : SourceLine → Option Text
  | .separator => some []
  | .text content => some content
  | _ => none

def SourceLine.declaration : SourceLine → Declaration
  | .code line => .ofLine line
  | _ => .other

/-! ## The parts of a block -/

/-- A tag with the lines behind it, up to the next tag. -/
structure TagSection where
  tag : Tag
  body : List SourceLine

namespace TagSection

def isUsage (s : TagSection) : Bool :=
  s.tag.name = "usage".toList

def descriptionLines (s : TagSection) : List Text :=
  if s.isUsage then s.body.filterMap SourceLine.break?
  else s.body.filterMap SourceLine.description?

def usageLines (s : TagSection) : List Text :=
  (if s.tag.operand.isEmpty then [] else [s.tag.operand]) ++
    s.body.filterMap SourceLine.content?

end TagSection

/-- The lines up to the first tag. -/
def untagged (ls : List PlacedLine) : List SourceLine :=
  (ls.map Prod.fst).takeWhile (!·.isTag)

def tagSections : List PlacedLine → List TagSection
  | [] => []
  | (.tag name operand, n) :: ls => ⟨⟨n, name, operand⟩, untagged ls⟩ :: tagSections ls
  | _ :: ls => tagSections ls

def lastUsage? (ls : List PlacedLine) : Option TagSection :=
  ((tagSections ls).filter (·.isUsage)).getLast?

/-- The block that a run of lines makes. -/
def blockOf (ls : List PlacedLine) : DocBlock where
  firstLine := (ls.head?.map Prod.snd).getD 0
  text :=
    (untagged ls).filterMap SourceLine.description? ++
      (tagSections ls).flatMap TagSection.descriptionLines
  tags := (tagSections ls).map TagSection.tag
  usage := (lastUsage? ls).map TagSection.usageLines

/-! ## Cutting and attaching -/

/-- A block in its place: all lines in front of it, its own lines, and the line behind it
if there is one. -/
structure PlacedBlock where
  before : List PlacedLine
  lines : List PlacedLine
  next? : Option SourceLine

namespace PlacedBlock

/-- Whether there is code in front of the line behind the block. -/
def sawCode (b : PlacedBlock) : Bool :=
  (b.before ++ b.lines).any (·.1.isCode)

def declaration (b : PlacedBlock) : Declaration :=
  (b.next?.map SourceLine.declaration).getD .other

def attach (r : Reading) (b : PlacedBlock) : Except Fault Reading :=
  { r with sawCode := b.sawCode }.attach (blockOf b.lines) b.declaration

end PlacedBlock

/-- Cuts lines into blocks, `before` being the lines in front of them.  A block begins at
a doc line and goes on through doc lines and separators. -/
def cutBlocks (before : List PlacedLine) : List PlacedLine → List PlacedBlock
  | [] => []
  | l :: ls =>
    if l.1.isDoc then
      let lines := l :: ls.takeWhile (·.1.isInner)
      let behind := ls.dropWhile (·.1.isInner)
      ⟨before, lines, behind.head?.map Prod.fst⟩ :: cutBlocks (before ++ lines) behind
    else
      cutBlocks (before ++ [l]) ls
termination_by ls => ls.length
decreasing_by
  · have hle : (ls.dropWhile (·.1.isInner)).length ≤ ls.length :=
      List.Sublist.length_le (List.dropWhile_sublist _)
    simp only [List.length_cons]
    omega
  · simp

namespace Reading

/-- The module that is documented when all lines are read. -/
def conclude (r : Reading) (name : Text) : Except Fault ModuleDoc :=
  let m := { r.doc with name := r.moduleName.getD name }
  if m.isClassModule && m.classes.isEmpty then
    .error (.classModuleWithoutClass m.name)
  else
    .ok m

end Reading

/-- Reads lines in block form. -/
def readBlocks (name : Text) (ls : List PlacedLine) : Except Fault ModuleDoc := do
  let r ← (cutBlocks [] ls).foldlM PlacedBlock.attach {}
  r.conclude name

/-- Whether a line behind these lines would directly follow a block: the last of them
that is not a separator is a doc line. -/
def EndInBlock (ls : List PlacedLine) : Prop :=
  ∃ l, (ls.filter (·.1 ≠ .separator)).getLast? = some l ∧ l.1.isDoc

/-! ## What blocks are made of -/

theorem mem_of_mem_tags {ls : List PlacedLine} {t : Tag} (h : t ∈ (blockOf ls).tags) :
    (.tag t.name t.operand, t.line) ∈ ls := by
  obtain ⟨s, hs, rfl⟩ := List.mem_map.mp h
  clear h
  induction ls with
  | nil => cases hs
  | cons l ls ih =>
      obtain ⟨l, n⟩ := l
      cases l with
      | tag name operand =>
          rcases List.mem_cons.mp hs with rfl | hrest
          · exact List.mem_cons_self
          · exact List.mem_cons_of_mem _ (ih hrest)
      | separator | text _ | gap | code _ => exact List.mem_cons_of_mem _ (ih hs)

theorem lines_subset_of_mem_cutBlocks {before ls : List PlacedLine} {b : PlacedBlock}
    (h : b ∈ cutBlocks before ls) : b.lines ⊆ ls := by
  fun_induction cutBlocks before ls with
  | case1 before => cases h
  | case2 before l ls hdoc lines behind =>
      rename_i ih
      have hcut : l :: ls = lines ++ behind := by simp [lines, behind]
      rw [hcut]
      rcases List.mem_cons.mp h with rfl | hrest
      · exact List.subset_append_left _ _
      · exact List.subset_append_of_subset_right _ (ih hrest)
  | case3 before l ls hdoc ih => exact List.subset_cons_of_subset _ (ih h)

theorem before_of_mem_cutBlocks {before ls : List PlacedLine} {b : PlacedBlock}
    (h : b ∈ cutBlocks before ls) : before <+: b.before := by
  fun_induction cutBlocks before ls with
  | case1 before => cases h
  | case2 before l ls hdoc lines behind =>
      rename_i ih
      rcases List.mem_cons.mp h with rfl | hrest
      · exact List.prefix_rfl
      · exact (List.prefix_append _ _).trans (ih hrest)
  | case3 before l ls hdoc ih => exact (List.prefix_append _ _).trans (ih h)

theorem cutBlocks_of_not_isDoc {l : PlacedLine} (hl : l.1.isDoc = false) (before ls : List PlacedLine) :
    cutBlocks before (l :: ls) = cutBlocks (before ++ [l]) ls := by
  rw [cutBlocks]
  simp [hl]

end DocComment
end ApiManual
