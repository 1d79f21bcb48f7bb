import ApiManual.Proofs.DocComment.Refinement
import ApiManual.Proofs.TypeExpr.Splitting

/-!
# Fields without a type

A field of a class may have no type, but then it has no description either: what stands
behind its name is read as a type, and a description that does not begin like one is
refused, with the whole source.
-/

namespace ApiManual
namespace DocComment

open Text

/-- The text behind the visibility and the name of a field. -/
def Tag.behindName (t : Tag) : Text :=
  skipBlanks ((takeVisibility t.operand).2.dropWhile (!isBlank ·))

theorem fieldDoc_of_split_error {t : Tag} {e : TypeError} (hne : t.behindName ≠ [])
    (h : TypeExpr.split t.behindName = .error e) :
    fieldDoc false t = .error (t.malformed t.behindName e) := by
  have hoperand : t.operand ≠ [] := by
    intro hnil
    rw [Tag.behindName, hnil] at hne
    exact hne rfl
  have hsplit : t.splitType t.behindName = .error (t.malformed t.behindName e) := by
    rw [Tag.splitType, h]
    rfl
  unfold Tag.behindName at hsplit
  rw [fieldDoc, if_neg (by simpa using hoperand)]
  simp only [Bool.false_eq_true, if_false, hsplit]
  rfl

namespace Reading

theorem exists_fieldDoc_of_attach {r r' : Reading} {b : DocBlock} {d : Declaration}
    (h : r.attach b d = .ok r') {classTag : Tag} {isEnum : Bool}
    (hclass : b.classTag? = some (classTag, isEnum)) {t : Tag}
    (ht : t ∈ b.tagsNamed "field".toList) : ∃ f, fieldDoc isEnum t = .ok f := by
  obtain ⟨s, describes, -, hadds⟩ := exists_of_attach h
  cases hadds with
  | inl hadds =>
      obtain ⟨classTag', isEnum', htag, hattach⟩ := hadds
      rw [hclass] at htag
      cases htag
      unfold attachClass at hattach
      obtain ⟨name, -, hattach⟩ := exists_of_bind_ok hattach
      obtain ⟨fields, hfields, -⟩ := exists_of_bind_ok hattach
      exact exists_of_mem_mapM_ok hfields ht
  | inr hadds =>
      rw [hclass] at hadds
      cases hadds.1

end Reading

/-- The fields of an accepted source have all been read. -/
theorem exists_fieldDoc_of_readAt {path source : Text} {m : ModuleDoc}
    (h : readAt path source = .ok m) {b : PlacedBlock}
    (hb : b ∈ cutBlocks [] (placedLines source)) {classTag : Tag} {isEnum : Bool}
    (hclass : (blockOf b.lines).classTag? = some (classTag, isEnum)) {t : Tag}
    (ht : t ∈ (blockOf b.lines).tagsNamed "field".toList) : ∃ f, fieldDoc isEnum t = .ok f := by
  rw [readAt, readSource_eq_readBlocks] at h
  obtain ⟨r, hrun, -⟩ := exists_of_bind_ok h
  obtain ⟨s, s', hattach⟩ := exists_of_mem_foldlM hrun hb
  exact Reading.exists_fieldDoc_of_attach hattach hclass ht

/-- A text that does not begin like a type is refused where it is split, as what stands
behind the name of a field of a class, and with the source this field is in.  Only a blank
text has an empty type in front. -/
theorem refused_of_startsType {c : Char} {s rest : Text} (hs : trimStart s = c :: rest)
    (hc : TypeExpr.startsType c = false) :
    TypeExpr.split s = .error (.unexpected [c]) ∧
      (∀ text behind,
        TypeExpr.split text = .ok ([], behind) ↔ isBlankLine text ∧ behind = []) ∧
      ∀ t : Tag, t.behindName = s →
        fieldDoc false t = .error (t.malformed s (.unexpected [c])) ∧
        ∀ path source, ∀ b ∈ cutBlocks [] (placedLines source),
          t ∈ (blockOf b.lines).tagsNamed "field".toList →
          (∃ classTag, (blockOf b.lines).classTag? = some (classTag, false)) →
            ∃ e, readAt path source = .error e := by
  have hsplit := TypeExpr.split_of_startsType hc hs
  refine ⟨hsplit, fun _ _ => TypeExpr.split_eq_nil_iff, ?_⟩
  intro t ht
  have hne : t.behindName ≠ [] := by
    intro hnil
    rw [← ht, hnil] at hs
    cases hs
  have hfield := fieldDoc_of_split_error hne (ht ▸ hsplit)
  rw [ht] at hfield
  refine ⟨hfield, ?_⟩
  intro path source b hb hmem hclass
  obtain ⟨classTag, hclass⟩ := hclass
  cases hread : readAt path source with
  | error e => exact ⟨e, rfl⟩
  | ok m =>
      obtain ⟨f, hf⟩ := exists_fieldDoc_of_readAt hread hb hclass hmem
      rw [hfield] at hf
      cases hf

/-- A class with a field that has a description and no type. -/
def untypedSource : Text :=
  "--- A box.\n---@class Box\n---@field private size - The size\n".toList ++
    "local Box = {}\n".toList

theorem refused_of_startsType_dash :
    let details := "- The size".toList
    let t : Tag := ⟨3, "field".toList, "private size - The size".toList⟩
    trimStart details = '-' :: " The size".toList ∧ TypeExpr.startsType '-' = false ∧
      t.behindName = details ∧
      TypeExpr.split details = .error (.unexpected ['-']) ∧
      fieldDoc false t = .error (t.malformed details (.unexpected ['-'])) ∧
      ∃ e, readAt "box.lua".toList untypedSource = .error e := by
  intro details t
  have hs : trimStart details = '-' :: " The size".toList := rfl
  have ht : t.behindName = details := by decide +kernel
  obtain ⟨b, hb, hclass, hfield⟩ : ∃ b ∈ cutBlocks [] (placedLines untypedSource),
      (blockOf b.lines).classTag? = some (⟨2, "class".toList, "Box".toList⟩, false) ∧
        t ∈ (blockOf b.lines).tagsNamed "field".toList := by
    decide +kernel
  obtain ⟨hsplit, -, hrefused⟩ := refused_of_startsType hs rfl
  obtain ⟨hfieldDoc, hsource⟩ := hrefused t ht
  exact ⟨hs, rfl, ht, hsplit, hfieldDoc,
    hsource "box.lua".toList untypedSource b hb hfield ⟨_, hclass⟩⟩

/-- The description of a field that has no type is not split off but refused. -/
theorem not_split_numberSign :
    let details := "# The size".toList
    let source := "---@class Box\n---@field size # The size\nlocal Box = {}\n".toList
    TypeExpr.startsType '#' = false ∧ TypeExpr.split details ≠ .ok ([], details) ∧
      TypeExpr.split details = .error (.unexpected ['#']) ∧
      readAt "box.lua".toList source = .error (.malformedType 2 details (.unexpected ['#'])) := by
  intro details source
  have hsplit : TypeExpr.split details = .error (.unexpected ['#']) := by decide +kernel
  have hread : (readAt "box.lua".toList source).map (fun _ => ()) =
      .error (.malformedType 2 details (.unexpected ['#'])) := by
    decide +kernel
  refine ⟨rfl, ?_, hsplit, of_map_error hread⟩
  rw [hsplit]
  intro h
  cases h

end DocComment
end ApiManual
