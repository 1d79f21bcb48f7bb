import ApiManual.Proofs.Page.Targets

/-!
# Sections and member tables

A section of a page goes from its heading to the next heading that does not belong below
it.  On the page of a plain module the section of an enumeration is a member table without
any heading of its own, and no other section has such a table.
-/

namespace ApiManual

namespace Markdown

/-- Whether a section of this level ends in front of the block. -/
def Block.endsSection (level : ℕ) : Block → Bool
  | .heading l _ => l ≤ level
  | _ => false

/-- `body` is all that stands under a heading of the document. -/
def SectionOf (document : Document) (level : ℕ) (name : Text) (body : Document) : Prop :=
  ∃ front back, document = front ++ (.heading level name :: (body ++ back)) ∧
    (∀ b ∈ body, b.endsSection level = false) ∧ ∀ b ∈ back.head?, b.endsSection level

def Block.isMemberTable : Block → Bool
  | .table headers _ _ => headers = ["Member".toList, "Description".toList]
  | _ => false

def Document.memberTables (document : Document) : Document :=
  document.filter Block.isMemberTable

namespace SectionOf

variable {document body : Document} {level : ℕ} {name : Text}

theorem isInfix (h : SectionOf document level name body) :
    .heading level name :: body <:+: document := by
  obtain ⟨front, back, rfl, -, -⟩ := h
  exact ⟨front, back, by simp⟩

theorem shows (h : SectionOf document level name body) :
    Shows document.render (.heading level name :: body) :=
  shows_of_infix (by simp) h.isInfix

theorem memberTables_sublist (h : SectionOf document level name body) :
    body.memberTables.Sublist document.memberTables := by
  have hbody : body.Sublist (.heading level name :: body) := List.sublist_cons_self ..
  exact (hbody.trans h.isInfix.sublist).filter Block.isMemberTable

end SectionOf

theorem Document.memberTables_append (s t : Document) :
    Document.memberTables (s ++ t) = s.memberTables ++ t.memberTables :=
  List.filter_append ..

/-! ## Beginnings of sections -/

/-- Nothing of an open section of this level is in the document. -/
def Begins (level : ℕ) (document : Document) : Prop :=
  ∀ b ∈ document.head?, b.endsSection level

theorem begins_nil (level : ℕ) : Begins level [] := by
  simp [Begins]

theorem begins_heading {level l : ℕ} (h : l ≤ level) (name : Text) (document : Document) :
    Begins level (.heading l name :: document) := by
  simp [Begins, Block.endsSection, h]

theorem Begins.append {level : ℕ} {s t : Document} (hs : Begins level s) (ht : Begins level t) :
    Begins level (s ++ t) := by
  cases s with
  | nil => exact ht
  | cons b s => exact hs

theorem begins_flatMap {α : Type} {level : ℕ} {part : α → Document}
    (hpart : ∀ a, Begins level (part a)) (l : List α) : Begins level (l.flatMap part) := by
  induction l with
  | nil => exact begins_nil level
  | cons a l ih =>
      rw [List.flatMap_cons]
      exact (hpart a).append ih

theorem sectionOf_part {α : Type} {shown : List α} {a : α} (ha : a ∈ shown) {level : ℕ}
    (name : α → Text) (body : α → Document) (hbody : ∀ b ∈ body a, b.endsSection level = false)
    (front : Document) (heading : Block) {back : Document} (hback : Begins level back) :
    SectionOf (front ++ ((if shown.isEmpty then [] else
      heading :: shown.flatMap fun a => .heading level (name a) :: body a) ++ back))
      level (name a) (body a) := by
  obtain ⟨before, after, rfl⟩ := List.append_of_mem ha
  refine ⟨front ++ (heading :: before.flatMap fun a => .heading level (name a) :: body a),
    (after.flatMap fun a => .heading level (name a) :: body a) ++ back, ?_, hbody, ?_⟩
  · simp
  · exact (begins_flatMap (fun a => begins_heading (le_refl level) (name a) (body a)) after).append
      hback

end Markdown

open Markdown

/-- The classes that the page of the module shows. -/
def ModuleDoc.shownClasses (m : ModuleDoc) : List ClassDoc :=
  match m.primaryClass? with
  | some c => [c]
  | none => m.classes

/-- The heading under which the page of the module shows a class. -/
def ModuleDoc.shownName (m : ModuleDoc) (c : ClassDoc) : Text :=
  if m.primaryClass?.isSome then m.name else c.name

namespace Page

open ApiManual.Symbol

/-- The section of a class is a table of its members, behind its descriptions. -/
def ShowsMembers (index : Index) (m : ModuleDoc) (c : ClassDoc) : Prop :=
  ∃ level body, SectionOf (ofModule index m) level (m.shownName c) body ∧
    Shows (text index m) (.heading level (m.shownName c) :: body) ∧
    (∀ b ∈ body, b.isHeading = false) ∧
    body.memberTables = [.table ["Member".toList, "Description".toList] [.left, .left]
      (c.fields.map fun f => [backticked f.name, index.link f.details])]

/-- The section of a class holds the list of its fields and no table of members. -/
def ShowsNoMembers (index : Index) (m : ModuleDoc) (c : ClassDoc) : Prop :=
  ∃ level body, SectionOf (ofModule index m) level (m.shownName c) body ∧
    fieldSection index (level + 1) c.fields <:+: body ∧ body.memberTables = []

/-! ## Parts of a page -/

/-- The block belongs to an open section of this level and is no member table. -/
def Inner (level : ℕ) (b : Block) : Prop :=
  b.endsSection level = false ∧ b.isMemberTable = false

theorem inner_of_heading {level l : ℕ} (h : level < l) (name : Text) :
    Inner level (.heading l name) := by
  simp [Inner, Block.endsSection, Block.isMemberTable, h]

theorem Inner.mono {level l : ℕ} (h : l ≤ level) {b : Block} (hb : Inner level b) : Inner l b := by
  refine ⟨?_, hb.2⟩
  cases b with
  | heading n name =>
      have hn : level < n := by simpa [Block.endsSection] using hb.1
      exact (inner_of_heading (lt_of_le_of_lt h hn) name).1
  | raw | bold | table | code | rule => rfl

theorem memberTables_of_inner {level : ℕ} {document : Document}
    (h : ∀ b ∈ document, Inner level b) : document.memberTables = [] := by
  rw [Document.memberTables, List.filter_eq_nil_iff]
  intro b hb
  simp [(h b hb).2]

theorem inner_paragraph (level : ℕ) (text : Text) : ∀ b ∈ paragraph text, Inner level b := by
  intro b hb
  simp only [paragraph] at hb
  split at hb
  · cases hb
  · rw [List.mem_singleton.mp hb]
    exact ⟨rfl, rfl⟩

theorem inner_linked (index : Index) (level : ℕ) (text : Text) :
    ∀ b ∈ linked index text, Inner level b :=
  inner_paragraph level _

theorem inner_functionSection (index : Index) (scope : Text) {level l : ℕ} (h : level < l)
    (f : FunctionDoc) : ∀ b ∈ functionSection index scope l f, Inner level b := by
  have hhead : ∀ b ∈ ([.heading l (f.name ++ "()".toList), title index "Signature".toList] :
      Document), Inner level b := by
    rw [List.forall_mem_cons, List.forall_mem_singleton]
    exact ⟨inner_of_heading h _, rfl, rfl⟩
  have hcode : ∀ b ∈ ([luaCode (signature index scope f), paramTable index f.params] : Document),
      Inner level b := by
    rw [List.forall_mem_cons, List.forall_mem_singleton]
    exact ⟨⟨rfl, rfl⟩, rfl, rfl⟩
  have hreturns : ∀ b ∈ (if f.returns.isEmpty then [] else [returnTable index f.returns] :
      Document), Inner level b := by
    split
    · simp
    · rw [List.forall_mem_singleton]
      exact ⟨rfl, rfl⟩
  have hnotes : ∀ b ∈ (if f.details.isEmpty then [] else
      title index "Notes".toList :: linked index f.details : Document), Inner level b := by
    split
    · simp
    · rw [List.forall_mem_cons]
      exact ⟨⟨rfl, rfl⟩, inner_linked index level f.details⟩
  simp only [functionSection, List.forall_mem_append, List.forall_mem_singleton]
  have hsummary := inner_linked index level f.summary
  refine ⟨⟨⟨⟨⟨⟨hhead, hsummary⟩, hcode⟩, hreturns⟩, hnotes⟩, ?_⟩, rfl, rfl⟩
  cases f.usage with
  | none => simp
  | some usage =>
      rw [List.forall_mem_cons, List.forall_mem_singleton]
      exact ⟨⟨rfl, rfl⟩, rfl, rfl⟩

theorem inner_functionSections (index : Index) (scope : Text) {level l : ℕ} (h : level < l)
    (functions : List FunctionDoc) :
    ∀ b ∈ functionSections index scope l functions, Inner level b := by
  intro b hb
  simp only [functionSections] at hb
  split at hb
  · cases hb
  · rcases List.mem_cons.mp hb with rfl | hmem
    · exact inner_of_heading h _
    · obtain ⟨f, -, hf⟩ := List.mem_flatMap.mp hmem
      exact inner_functionSection index scope (Nat.lt_succ_of_lt h) f b hf

theorem inner_fieldSection (index : Index) {level l : ℕ} (h : level < l)
    (fields : List FieldDoc) : ∀ b ∈ fieldSection index l fields, Inner level b := by
  intro b hb
  simp only [fieldSection] at hb
  split at hb
  · cases hb
  · rcases List.mem_cons.mp hb with rfl | hmem
    · exact inner_of_heading h _
    · exact inner_paragraph level _ b hmem

def enumBody (index : Index) (c : ClassDoc) : Document :=
  linked index c.summary ++ (linked index c.details ++ [memberTable index c.fields])

def classBody (index : Index) (level : ℕ) (summary details : Text) (c : ClassDoc) : Document :=
  linked index summary ++ (linked index details ++ (fieldSection index (level + 1) c.fields ++
    functionSections index (c.name ++ [':']) (level + 1) c.methods))

theorem enumSection_eq (index : Index) (level : ℕ) (c : ClassDoc) :
    enumSection index level c = .heading level c.name :: enumBody index c := by
  simp [enumSection, enumBody]

theorem classSection_eq (index : Index) (level : ℕ) (heading summary details : Text)
    (c : ClassDoc) :
    classSection index level heading summary details c =
      .heading level heading :: classBody index level summary details c := by
  simp [classSection, classBody]

theorem isHeading_enumBody (index : Index) (c : ClassDoc) :
    ∀ b ∈ enumBody index c, b.isHeading = false := by
  simp only [enumBody, List.forall_mem_append, List.forall_mem_singleton]
  exact ⟨isHeading_paragraph _, isHeading_paragraph _, rfl⟩

theorem endsSection_of_isHeading {level : ℕ} {b : Block} (h : b.isHeading = false) :
    b.endsSection level = false := by
  cases b <;> first | rfl | cases h

theorem memberTables_enumBody (index : Index) (c : ClassDoc) :
    (enumBody index c).memberTables = [memberTable index c.fields] := by
  rw [enumBody, Document.memberTables_append, Document.memberTables_append,
    memberTables_of_inner (inner_linked index 0 _), memberTables_of_inner (inner_linked index 0 _)]
  rfl

theorem inner_classBody (index : Index) (level : ℕ) (summary details : Text) (c : ClassDoc) :
    ∀ b ∈ classBody index level summary details c, Inner level b := by
  simp only [classBody, List.forall_mem_append]
  exact ⟨inner_linked index level summary, inner_linked index level details,
    inner_fieldSection index (Nat.lt_succ_self level) c.fields,
    inner_functionSections index _ (Nat.lt_succ_self level) c.methods⟩

theorem fieldSection_infix_classBody (index : Index) (level : ℕ) (summary details : Text)
    (c : ClassDoc) :
    fieldSection index (level + 1) c.fields <:+: classBody index level summary details c := by
  rw [classBody, ← List.append_assoc]
  exact ⟨_, _, List.append_assoc ..⟩

theorem begins_functionSections (index : Index) (scope : Text) {level l : ℕ} (h : l ≤ level)
    (functions : List FunctionDoc) : Begins level (functionSections index scope l functions) := by
  simp only [functionSections]
  split
  · exact begins_nil level
  · exact begins_heading h _ _

theorem begins_classSections (index : Index) {level : ℕ} (h : 2 ≤ level)
    (classes : List ClassDoc) : Begins level (classSections index classes) := by
  simp only [classSections]
  split
  · exact begins_nil level
  · exact begins_heading h _ _

/-! ## Whole pages -/

def plainHead (index : Index) (m : ModuleDoc) : Document :=
  .heading 1 m.name :: (linked index m.summary ++ (linked index m.details ++ [.rule]))

theorem plainModulePage_eq (index : Index) (m : ModuleDoc) :
    plainModulePage index m = plainHead index m ++ (enumSections index m.classes ++
      (functionSections index [] 2 m.functions ++ classSections index m.classes)) := by
  simp [plainModulePage, plainHead]

theorem enumSections_eq (index : Index) (classes : List ClassDoc) :
    enumSections index classes = if (classes.filter (·.isEnum)).isEmpty then [] else
      .heading 2 "Enums".toList ::
        (classes.filter (·.isEnum)).flatMap fun c => .heading 3 c.name :: enumBody index c := by
  rw [enumSections, funext (enumSection_eq index 3)]

theorem classSections_eq (index : Index) (classes : List ClassDoc) :
    classSections index classes = if (classes.filter (!·.isEnum)).isEmpty then [] else
      .heading 2 "Classes".toList :: (classes.filter (!·.isEnum)).flatMap fun c =>
        .heading 3 c.name :: classBody index 3 c.summary c.details c := by
  simp only [classSections, classSection_eq]

theorem sectionOf_enum (index : Index) {m : ModuleDoc} {c : ClassDoc} (hc : c ∈ m.classes)
    (henum : c.isEnum) :
    SectionOf (plainModulePage index m) 3 c.name (enumBody index c) := by
  have hbody : ∀ b ∈ enumBody index c, b.endsSection 3 = false :=
    fun b hb => endsSection_of_isHeading (isHeading_enumBody index c b hb)
  have hbehind : Begins 3 (functionSections index [] 2 m.functions ++
      classSections index m.classes) :=
    (begins_functionSections index [] (by decide) _).append
      (begins_classSections index (by decide) _)
  rw [plainModulePage_eq, enumSections_eq]
  exact sectionOf_part (List.mem_filter.mpr ⟨hc, henum⟩) ClassDoc.name (enumBody index) hbody _ _
    hbehind

theorem sectionOf_class (index : Index) {m : ModuleDoc} {c : ClassDoc} (hc : c ∈ m.classes)
    (henum : c.isEnum = false) :
    SectionOf (plainModulePage index m) 3 c.name (classBody index 3 c.summary c.details c) := by
  have hbody : ∀ b ∈ classBody index 3 c.summary c.details c, b.endsSection 3 = false :=
    fun b hb => (inner_classBody index 3 c.summary c.details c b hb).1
  have hshown : c ∈ m.classes.filter (!·.isEnum) := List.mem_filter.mpr ⟨hc, by simp [henum]⟩
  have hsection := sectionOf_part hshown ClassDoc.name
    (fun c => classBody index 3 c.summary c.details c) hbody
    (plainHead index m ++ (enumSections index m.classes ++
      functionSections index [] 2 m.functions)) (.heading 2 "Classes".toList) (begins_nil 3)
  rw [← classSections_eq] at hsection
  simpa [plainModulePage_eq] using hsection

theorem inner_classSections (index : Index) (classes : List ClassDoc) :
    ∀ b ∈ classSections index classes, Inner 0 b := by
  intro b hb
  rw [classSections_eq] at hb
  split at hb
  · cases hb
  · rcases List.mem_cons.mp hb with rfl | hmem
    · exact inner_of_heading (by decide) _
    · obtain ⟨c, -, hc⟩ := List.mem_flatMap.mp hmem
      rcases List.mem_cons.mp hc with rfl | hbody
      · exact inner_of_heading (by decide) _
      · exact (inner_classBody index 3 c.summary c.details c b hbody).mono (Nat.zero_le 3)

theorem memberTables_enumSections (index : Index) (classes : List ClassDoc) :
    Document.memberTables (enumSections index classes) =
      (classes.filter (·.isEnum)).map fun c => memberTable index c.fields := by
  have hpart : ∀ c : ClassDoc, Document.memberTables (enumSection index 3 c) =
      [memberTable index c.fields] := by
    intro c
    rw [enumSection_eq]
    exact memberTables_enumBody index c
  rw [enumSections]
  split
  · rename_i hempty
    simp [List.isEmpty_iff.mp hempty, Document.memberTables]
  · have hflat : Document.memberTables ((classes.filter (·.isEnum)).flatMap (enumSection index 3)) =
        (classes.filter (·.isEnum)).flatMap fun c => [memberTable index c.fields] := by
      rw [Document.memberTables, List.filter_flatMap]
      exact List.flatMap_congr fun c _ => hpart c
    rw [List.map_eq_flatMap]
    exact hflat

theorem memberTables_plainModulePage (index : Index) (m : ModuleDoc) :
    Document.memberTables (plainModulePage index m) =
      (m.classes.filter (·.isEnum)).map fun c => memberTable index c.fields := by
  have hhead : ∀ b ∈ plainHead index m, Inner 0 b := by
    simp only [plainHead, List.forall_mem_cons, List.forall_mem_append]
    exact ⟨inner_of_heading (by decide) _, inner_linked index 0 _, inner_linked index 0 _,
      ⟨rfl, rfl⟩, by simp⟩
  have hfunctions := inner_functionSections index [] (by decide : 0 < 2) m.functions
  have hclasses := inner_classSections index m.classes
  rw [plainModulePage_eq, Document.memberTables_append, Document.memberTables_append,
    Document.memberTables_append, memberTables_of_inner hhead, memberTables_enumSections,
    memberTables_of_inner hfunctions, memberTables_of_inner hclasses]
  simp

theorem ofModule_plain (index : Index) {m : ModuleDoc} (hplain : m.primaryClass? = none) :
    ofModule index m = plainModulePage index m := by
  rw [ofModule, hplain]

theorem showsMembers_of_plain (index : Index) {m : ModuleDoc} (hplain : m.primaryClass? = none)
    {c : ClassDoc} (hc : c ∈ m.classes) (henum : c.isEnum) : ShowsMembers index m c := by
  have hname : m.shownName c = c.name := by simp [ModuleDoc.shownName, hplain]
  have hsection := sectionOf_enum index hc henum
  rw [← ofModule_plain index hplain, ← hname] at hsection
  exact ⟨3, enumBody index c, hsection, hsection.shows, isHeading_enumBody index c,
    memberTables_enumBody index c⟩

theorem showsNoMembers_of_plain (index : Index) {m : ModuleDoc} (hplain : m.primaryClass? = none)
    {c : ClassDoc} (hc : c ∈ m.classes) (henum : c.isEnum = false) : ShowsNoMembers index m c := by
  have hname : m.shownName c = c.name := by simp [ModuleDoc.shownName, hplain]
  have hsection := sectionOf_class index hc henum
  rw [← ofModule_plain index hplain, ← hname] at hsection
  exact ⟨3, _, hsection, fieldSection_infix_classBody ..,
    memberTables_of_inner (inner_classBody index 3 c.summary c.details c)⟩

theorem ofModule_primary (index : Index) {m : ModuleDoc} {c : ClassDoc}
    (hprimary : m.primaryClass? = some c) :
    ofModule index m = .heading 1 m.name ::
      classBody index 1 (orElse m.summary c.summary) (orElse m.details c.details) c := by
  rw [ofModule, hprimary]
  exact classSection_eq ..

theorem memberTables_of_primary (index : Index) {m : ModuleDoc} {c : ClassDoc}
    (hprimary : m.primaryClass? = some c) :
    Document.memberTables (ofModule index m) = [] := by
  rw [ofModule_primary index hprimary]
  apply memberTables_of_inner
  rw [List.forall_mem_cons]
  exact ⟨inner_of_heading Nat.zero_lt_one m.name,
    fun b hb => (inner_classBody index 1 _ _ c b hb).mono (Nat.zero_le 1)⟩

theorem showsNoMembers_of_primary (index : Index) {m : ModuleDoc} {c : ClassDoc}
    (hprimary : m.primaryClass? = some c) : ShowsNoMembers index m c := by
  have hname : m.shownName c = m.name := by simp [ModuleDoc.shownName, hprimary]
  have hinner := inner_classBody index 1 (orElse m.summary c.summary) (orElse m.details c.details) c
  -- the whole page is the section of the class
  refine ⟨1, _, ⟨[], [], ?_, fun b hb => (hinner b hb).1, begins_nil 1⟩,
    fieldSection_infix_classBody .., memberTables_of_inner hinner⟩
  rw [ofModule_primary index hprimary, hname, List.nil_append, List.append_nil]

/-- On the page of a plain module the enumerations, and nothing else, are shown as tables of
their members.  On no page a class that is no enumeration has such a table, and where it has
the page for itself there is none at all. -/
theorem memberTables_ofModule (index : Index) (m : ModuleDoc) :
    (m.primaryClass? = none → (∀ c ∈ m.classes, c.isEnum → ShowsMembers index m c) ∧
        (ofModule index m).memberTables =
          (m.classes.filter (·.isEnum)).map fun c => memberTable index c.fields) ∧
      ∀ c ∈ m.shownClasses, c.isEnum = false → ShowsNoMembers index m c ∧
        (m.primaryClass? = some c → (ofModule index m).memberTables = []) := by
  constructor
  · intro hplain
    refine ⟨fun c hc henum => showsMembers_of_plain index hplain hc henum, ?_⟩
    rw [ofModule_plain index hplain, memberTables_plainModulePage]
  · intro c hc henum
    refine ⟨?_, memberTables_of_primary index⟩
    cases hprimary : m.primaryClass? with
    | none =>
        rw [ModuleDoc.shownClasses, hprimary] at hc
        exact showsNoMembers_of_plain index hprimary hc henum
    | some d =>
        rw [ModuleDoc.shownClasses, hprimary] at hc
        rw [List.mem_singleton.mp hc]
        exact showsNoMembers_of_primary index hprimary

/-- An enumeration, and a class with a field of the same form. -/
def sideEnum : ClassDoc where
  name := "Side".toList
  fields := [{ name := "LEFT".toList, details := "Flush left".toList }]
  isEnum := true

def layoutClass : ClassDoc where
  name := "Layout".toList
  fields := [{ name := "LEFT".toList, details := "Flush left".toList }]

def layoutModule : ModuleDoc where
  name := "ui".toList
  classes := [layoutClass, sideEnum]

/-- The class on a page of its own. -/
def layoutClassModule : ModuleDoc where
  name := "ui.Layout".toList
  classes := [layoutClass, sideEnum]
  isClassModule := true

theorem memberTables_layoutModule :
    layoutModule.primaryClass? = none ∧ sideEnum ∈ layoutModule.classes ∧
      ShowsMembers {} layoutModule sideEnum ∧ layoutClass ∈ layoutModule.shownClasses ∧
        ShowsNoMembers {} layoutModule layoutClass ∧
          layoutClassModule.primaryClass? = some layoutClass ∧
            (ofModule {} layoutClassModule).memberTables = [] := by
  have henum : sideEnum ∈ layoutModule.classes := by simp [layoutModule]
  have hclass : layoutClass ∈ layoutModule.shownClasses := List.mem_cons_self
  have hprimary : layoutClass ∈ layoutClassModule.shownClasses := List.mem_cons_self
  obtain ⟨hplain, hothers⟩ := memberTables_ofModule {} layoutModule
  have hpage := (memberTables_ofModule {} layoutClassModule).2 layoutClass hprimary rfl
  exact ⟨rfl, henum, (hplain rfl).1 sideEnum henum rfl, hclass, (hothers layoutClass hclass rfl).1,
    rfl, hpage.2 rfl⟩

def sideModule : ModuleDoc where
  name := "Side".toList
  classes := [sideEnum]
  isClassModule := true

/-- The page of a class module shows an enumeration like a class, with a list of fields and
without a table of members. -/
theorem not_showsMembers_primaryEnum :
    sideEnum ∈ sideModule.shownClasses ∧ sideEnum.isEnum ∧
      ¬ ShowsMembers {} sideModule sideEnum ∧
      text {} sideModule = "# Side\n\n## Fields\n\n- `LEFT`: Flush left\n".toList := by
  have htables : Document.memberTables (ofModule {} sideModule) = [] := by decide +kernel
  refine ⟨List.mem_cons_self, rfl, ?_, by decide +kernel⟩
  rintro ⟨level, body, hsection, -, -, hmembers⟩
  have hsub := hsection.memberTables_sublist
  rw [hmembers, htables] at hsub
  cases List.sublist_nil.mp hsub

end Page
end ApiManual
