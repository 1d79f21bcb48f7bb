import ApiManual.DocComment.Function
import ApiManual.Proofs.DocComment.PrintedDeclaration
import ApiManual.Proofs.DocComment.PrintedText

/-!
# Printed entities

The annotations of functions, classes and modules can be printed, and a block that shows
what one of them says documents the entity it was made from.
-/

namespace ApiManual
namespace DocComment

open Text

/-! ## Tags of a block -/

theorem mapM_of_operands {β : Type} {reader : Tag → Except Fault β} (operand : β → Text)
    {docs : List β} (hread : ∀ d ∈ docs, ∀ t : Tag, t.operand = operand d → reader t = .ok d)
    {ts : List Tag} (hts : ts.map Tag.operand = docs.map operand) :
    ts.mapM reader = .ok docs := by
  induction docs generalizing ts with
  | nil =>
      rw [List.map_eq_nil_iff.mp hts]
      rfl
  | cons d docs ih =>
      rw [List.forall_mem_cons] at hread
      obtain ⟨t, ts', rfl, ht, hts'⟩ := List.map_eq_cons_iff.mp hts
      rw [List.mapM_cons, hread.1 t ht, ok_bind, ih hread.2 hts', ok_bind]
      rfl

theorem operands_tagsNamed (b : DocBlock) (name : Text) :
    (b.tagsNamed name).map Tag.operand =
      (b.operands.filter (·.1 = name)).map Prod.snd := by
  rw [DocBlock.operands, List.filter_map, List.map_map]
  rfl

theorem tag?_eq_none {b : DocBlock} {name : Text} (h : ∀ t ∈ b.operands, t.1 ≠ name) :
    b.tag? name = none := by
  rw [DocBlock.tag?, List.find?_eq_none]
  intro t ht hname
  rw [decide_eq_true_eq] at hname
  exact h (t.name, t.operand) (List.mem_map_of_mem ht) hname

theorem tag?_first {b : DocBlock} {name operand : Text} {others : List (Text × Text)}
    (h : b.operands = (name, operand) :: others) :
    ∃ t, b.tag? name = some t ∧ t.operand = operand := by
  obtain ⟨t, ts, htags, ht, -⟩ := List.map_eq_cons_iff.mp h
  cases ht
  refine ⟨t, ?_, rfl⟩
  simp [DocBlock.tag?, htags]

theorem checkTags_eq {b : DocBlock} (h : ∀ t ∈ b.operands, t.1 ∈ documentedTags) :
    b.checkTags = .ok () := by
  have hfind : b.tags.find? (!·.isKnown) = none := by
    rw [List.find?_eq_none]
    intro t ht
    have hknown : t.name ∈ documentedTags :=
      h (t.name, t.operand) (List.mem_map_of_mem ht)
    simp [Tag.isKnown, hknown]
  rw [DocBlock.checkTags, hfind]

theorem visibility?_eq (b : DocBlock) :
    b.visibility? = b.operands.reverse.findSome? fun t =>
      DocBlock.visibilityOfTag? ⟨0, t.1, t.2⟩ := by
  rw [DocBlock.operands, ← List.map_reverse, List.findSome?_map]
  rfl

theorem visibilityOfTag?_word (visibility : Visibility) (line : ℕ) (operand : Text) :
    DocBlock.visibilityOfTag? ⟨line, visibilityWord visibility, operand⟩ = some visibility := by
  cases visibility <;> rfl

/-! ## Names of tags -/

def functionTags : List Text :=
  ["param".toList, "return".toList, "public".toList, "protected".toList, "private".toList,
    "usage".toList]

theorem visibilityWord_mem (visibility : Visibility) :
    visibilityWord visibility ∈ functionTags := by
  cases visibility <;> decide

theorem functionTags_documented : ∀ name ∈ functionTags, name ∈ documentedTags := by
  decide

theorem functionTags_ne : ∀ name ∈ functionTags,
    (name ≠ "class".toList ∧ name ≠ "enum".toList) ∧
      (name ≠ "module".toList ∧ name ≠ "classmod".toList) ∧ name ≠ "field".toList := by
  decide

theorem functionPreamble_tags (f : FunctionDoc) :
    ∀ t ∈ (functionPreamble f).tags ++ (functionPreamble f).usageTags,
      t.1 ∈ functionTags := by
  intro t ht
  simp only [functionPreamble, List.mem_append, List.mem_map, List.mem_singleton] at ht
  have hnames : "param".toList ∈ functionTags ∧ "return".toList ∈ functionTags := by decide
  rcases ht with (⟨p, -, rfl⟩ | ⟨r, -, rfl⟩ | rfl) | husage
  · exact hnames.1
  · exact hnames.2
  · exact visibilityWord_mem f.visibility
  · rw [eq_of_mem_usageTags husage]
    decide

/-! ## Functions -/

theorem tagForm_visibility (visibility : Visibility) :
    TagForm (visibilityWord visibility) [] where
  tagName := by cases visibility <;> decide
  trimmed := trimmed_nil
  oneLine := by simp

theorem FunctionForm.printable {f : FunctionDoc} (h : FunctionForm f) :
    (functionPreamble f).Printable where
  text := h.description.plainLines
  tagged := by simp [functionPreamble]
  tags := by
    intro t ht
    simp only [functionPreamble, List.mem_append, List.mem_map, List.mem_singleton] at ht
    rcases ht with ⟨p, hp, rfl⟩ | ⟨r, hr, rfl⟩ | rfl
    · exact (h.params p hp).tagForm
    · exact (h.returns r hr).tagForm
    · exact tagForm_visibility f.visibility
  noUsage := by
    intro t ht
    simp only [functionPreamble, List.mem_append, List.mem_map, List.mem_singleton] at ht
    have hnames : "param".toList ≠ "usage".toList ∧ "return".toList ≠ "usage".toList := by decide
    rcases ht with ⟨p, -, rfl⟩ | ⟨r, -, rfl⟩ | rfl
    · exact hnames.1
    · exact hnames.2
    · cases f.visibility <;> decide
  usage := by
    intro sample hsample
    obtain ⟨usage, husage, rfl⟩ := Option.map_eq_some_iff.mp hsample
    exact (h.usage usage husage).lines

theorem mergeParams_map (ps : List ParamDoc) : mergeParams (ps.map ParamDoc.name) ps = ps := by
  induction ps with
  | nil => rfl
  | cons p ps ih => simp [mergeParams, ih]

theorem filter_pairs {α : Type} (l : List α) (operand : α → Text) (name other : Text) :
    (l.map fun a => (name, operand a)).filter (·.1 = other) =
      if name = other then l.map fun a => (name, operand a) else [] := by
  by_cases h : name = other
  · rw [if_pos h, List.filter_eq_self, List.forall_mem_map]
    exact fun a _ => decide_eq_true h
  · rw [if_neg h, List.filter_eq_nil_iff, List.forall_mem_map]
    exact fun a _ heq => h (of_decide_eq_true heq)

theorem usageTags_filter (a : Preamble) {name : Text} (hname : "usage".toList ≠ name) :
    a.usageTags.filter (·.1 = name) = [] := by
  rw [List.filter_eq_nil_iff]
  intro t ht heq
  rw [eq_of_mem_usageTags ht] at heq
  exact hname (of_decide_eq_true heq)

theorem visibility_filter (visibility : Visibility) {name : Text}
    (hname : ∀ v, visibilityWord v ≠ name) :
    [(visibilityWord visibility, ([] : Text))].filter (·.1 = name) = [] := by
  rw [List.filter_cons_of_neg (by simpa using hname visibility), List.filter_nil]

section

variable {f : FunctionDoc} {b : DocBlock}

theorem operands_filter (hb : (functionPreamble f).ReadAs b) {name : Text}
    (hvisibility : ∀ v, visibilityWord v ≠ name) (husage : "usage".toList ≠ name) :
    b.operands.filter (·.1 = name) =
      (f.params.map fun p => ("param".toList, paramOperand p)).filter (·.1 = name) ++
        (f.returns.map fun r => ("return".toList, returnOperand r)).filter (·.1 = name) := by
  rw [hb.operands, List.filter_append, usageTags_filter _ husage, functionPreamble,
    List.filter_append, List.filter_append, visibility_filter f.visibility hvisibility]
  simp only [List.append_nil]

theorem params_mapM (hf : FunctionForm f) (hb : (functionPreamble f).ReadAs b) :
    (b.tagsNamed "param".toList).mapM paramDoc = .ok f.params := by
  apply mapM_of_operands paramOperand
  · intro p hp t ht
    exact paramDoc_eq (hf.params p hp) ht
  · have hvisibility : ∀ v, visibilityWord v ≠ "param".toList := by
      intro v
      cases v <;> decide
    rw [operands_tagsNamed, operands_filter hb hvisibility (by decide), filter_pairs, filter_pairs,
      if_pos rfl, if_neg (by decide), List.append_nil, List.map_map]
    rfl

theorem returns_mapM (hf : FunctionForm f) (hb : (functionPreamble f).ReadAs b) :
    (b.tagsNamed "return".toList).mapM returnDoc = .ok f.returns := by
  apply mapM_of_operands returnOperand
  · intro r hr t ht
    exact returnDoc_eq (hf.returns r hr) ht
  · have hvisibility : ∀ v, visibilityWord v ≠ "return".toList := by
      intro v
      cases v <;> decide
    rw [operands_tagsNamed, operands_filter hb hvisibility (by decide), filter_pairs, filter_pairs,
      if_neg (by decide), if_pos rfl, List.nil_append, List.map_map]
    rfl

/-- The tag of the visibility is the last one apart from that of the usage sample. -/
theorem visibility?_function (hb : (functionPreamble f).ReadAs b) :
    b.visibility? = some f.visibility := by
  have hnone : (functionPreamble f).usageTags.reverse.findSome?
      (fun t => DocBlock.visibilityOfTag? ⟨0, t.1, t.2⟩) = none := by
    unfold Preamble.usageTags
    split <;> rfl
  have hlast : ∃ front, (functionPreamble f).tags = front ++ [(visibilityWord f.visibility, [])] :=
    ⟨_, (List.append_assoc _ _ _).symm⟩
  obtain ⟨front, hfront⟩ := hlast
  rw [visibility?_eq, hb.operands, List.reverse_append, List.findSome?_append, hnone, hfront,
    List.reverse_concat, List.findSome?_cons, visibilityOfTag?_word]
  rfl

theorem functionDoc_eq (hf : FunctionForm f) (hb : (functionPreamble f).ReadAs b)
    (isLocal : Bool) : functionDoc b f.name (f.params.map ParamDoc.name) isLocal = .ok f := by
  have hdescriptions : b.descriptions = (f.summary, f.details) :=
    hf.description.descriptions_eq hb.text
  have husage : b.usageSample? = f.usage := usageSample?_eq hf.usage hb.usage
  rw [functionDoc, params_mapM hf hb, returns_mapM hf hb, visibility?_function hb, husage]
  simp only [hdescriptions, ok_bind, mergeParams_map, Option.getD_some]
  rfl

end

/-! ## Classes and modules -/

theorem Dotted.ne_nil {path : Text} (h : Dotted path) : path ≠ [] := by
  rintro rfl
  exact (h [] (by simp)).ne_nil rfl

theorem classWord_tag : ∀ isEnum, IsTagName (classWord isEnum) := by
  decide

theorem classWord_documented : ∀ isEnum, classWord isEnum ∈ documentedTags ∧
    classWord isEnum ≠ "module".toList ∧ classWord isEnum ≠ "classmod".toList := by
  decide

theorem field_documented : "field".toList ∈ documentedTags ∧
    "field".toList ≠ "module".toList ∧ "field".toList ≠ "classmod".toList := by
  decide

theorem classWord_ne_usage : ∀ isEnum, classWord isEnum ≠ "usage".toList := by
  decide

theorem moduleWord_tag : ∀ isClassModule, IsTagName (moduleWord isClassModule) := by
  decide

theorem moduleWord_documented : ∀ isClassModule, moduleWord isClassModule ∈ documentedTags ∧
    (moduleWord isClassModule ≠ "class".toList ∧ moduleWord isClassModule ≠ "enum".toList) ∧
      moduleWord isClassModule ≠ "field".toList := by
  decide

theorem moduleWord_ne_usage : ∀ isClassModule, moduleWord isClassModule ≠ "usage".toList := by
  decide

theorem tagForm_word {name operand : Text} (hname : IsTagName name)
    (hoperand : IsWord operand) : TagForm name operand where
  tagName := hname
  trimmed := hoperand.trimmed
  oneLine := oneLine_of_isWord hoperand

theorem ClassForm.printable {c : ClassDoc} (h : ClassForm c) : (classPreamble c).Printable where
  text := h.description.plainLines
  tagged := by simp [classPreamble]
  tags := by
    intro t ht
    simp only [classPreamble, List.mem_cons, List.mem_map] at ht
    rcases ht with rfl | ⟨f, hf, rfl⟩
    · exact tagForm_word (classWord_tag c.isEnum) h.name.isWord
    · exact (h.fields f hf).tagForm
  noUsage := by
    intro t ht
    have hfield : "field".toList ≠ "usage".toList := by decide
    simp only [classPreamble, List.mem_cons, List.mem_map] at ht
    rcases ht with rfl | ⟨f, -, rfl⟩
    · exact classWord_ne_usage c.isEnum
    · exact hfield
  usage := by
    intro sample hsample
    cases hsample

theorem Dotted.noColon {path : Text} (h : Dotted path) :
    ∀ c ∈ path, isBlank c = false ∧ c ≠ ':' := by
  intro c hc
  refine ⟨isBlank_of_isWhitespace_eq_false (h.isWord c hc), ?_⟩
  rintro rfl
  rcases mem_splitOn_or '.' hc with hdot | ⟨part, hpart, hmem⟩
  · cases hdot
  · exact (h part hpart).not_mem rfl hmem

theorem classTag?_class {c : ClassDoc} {b : DocBlock}
    (hb : b.operands = (classWord c.isEnum, c.name) ::
      c.fields.map fun f => ("field".toList, fieldOperand f)) :
    ∃ t, b.classTag? = some (t, c.isEnum) ∧ t.operand = c.name := by
  obtain ⟨t, htag, hoperand⟩ := tag?_first hb
  refine ⟨t, ?_, hoperand⟩
  cases hkind : c.isEnum with
  | false =>
      have hclass : b.tag? "class".toList = some t := by
        rw [hkind] at htag
        exact htag
      rw [DocBlock.classTag?, hclass]
      rfl
  | true =>
      have henum : b.tag? "enum".toList = some t := by
        rw [hkind] at htag
        exact htag
      have hclass : b.tag? "class".toList = none := by
        have hnames : "enum".toList ≠ "class".toList ∧ "field".toList ≠ "class".toList := by decide
        apply tag?_eq_none
        rw [hb, hkind, List.forall_mem_cons, List.forall_mem_map]
        exact ⟨hnames.1, fun f _ => hnames.2⟩
      rw [DocBlock.classTag?, hclass, henum]
      rfl

theorem fields_mapM {c : ClassDoc} (hc : ClassForm c) {b : DocBlock}
    (hb : b.operands = (classWord c.isEnum, c.name) ::
      c.fields.map fun f => ("field".toList, fieldOperand f)) :
    (b.tagsNamed "field".toList).mapM (fieldDoc c.isEnum) = .ok c.fields := by
  apply mapM_of_operands fieldOperand
  · intro f hf t ht
    exact (hc.fields f hf).fieldDoc_eq ht
  · have hword : classWord c.isEnum ≠ "field".toList := by
      cases c.isEnum <;> decide
    rw [operands_tagsNamed, hb, List.filter_cons_of_neg (by simpa using hword), filter_pairs,
      if_pos rfl, List.map_map]
    rfl

theorem ModuleForm.printable {m : ModuleDoc} (h : ModuleForm m) :
    (modulePreamble m).Printable where
  text := h.description.plainLines
  tagged := by simp [modulePreamble]
  tags := by
    intro t ht
    rw [List.mem_singleton.mp ht]
    exact tagForm_word (moduleWord_tag m.isClassModule) h.word
  noUsage := by
    intro t ht
    rw [List.mem_singleton.mp ht]
    exact moduleWord_ne_usage m.isClassModule
  usage := by
    intro sample hsample
    cases hsample

theorem moduleTag?_module {m : ModuleDoc} {b : DocBlock}
    (hb : b.operands = [(moduleWord m.isClassModule, m.name)]) :
    ∃ t, b.moduleTag? = some (t, m.isClassModule) ∧ t.operand = m.name := by
  obtain ⟨t, htag, hoperand⟩ := tag?_first hb
  refine ⟨t, ?_, hoperand⟩
  cases hkind : m.isClassModule with
  | false =>
      have hmodule : b.tag? "module".toList = some t := by
        rw [hkind] at htag
        exact htag
      rw [DocBlock.moduleTag?, hmodule]
      rfl
  | true =>
      have hclassmod : b.tag? "classmod".toList = some t := by
        rw [hkind] at htag
        exact htag
      have hmodule : b.tag? "module".toList = none := by
        have hname : "classmod".toList ≠ "module".toList := by decide
        apply tag?_eq_none
        rw [hb, hkind, List.forall_mem_singleton]
        exact hname
      rw [DocBlock.moduleTag?, hmodule, hclassmod]
      rfl

end DocComment
end ApiManual
