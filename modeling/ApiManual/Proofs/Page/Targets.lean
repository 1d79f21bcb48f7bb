import ApiManual.Page
import ApiManual.Proofs.Markdown
import ApiManual.Proofs.Symbol.Registration

/-!
# Where links lead

The index registers what a module documents, and the page describes it.  Both go through
the module on their own.  What the two visit is compared here: every public item of a
plain module has its heading on the page of the module, but for the methods of an
enumeration, which are registered and not described.
-/

namespace ApiManual

/-! ## What a module documents -/

/-- A documented part of a module that has a name of its own in the index. -/
inductive Item
  | whole (m : ModuleDoc)
  | type (c : ClassDoc)
  | method (c : ClassDoc) (f : FunctionDoc)
  | member (c : ClassDoc) (f : FieldDoc)
  | function (f : FunctionDoc)

namespace Item

def ofClass (c : ClassDoc) : List Item :=
  .type c :: (c.methods.map (.method c) ++ if c.isEnum then c.fields.map (.member c) else [])

def ofModule (m : ModuleDoc) : List Item :=
  .whole m :: (m.classes.flatMap ofClass ++ m.functions.map .function)

open ApiManual.Symbol in
/-- The entry of an item of a module that is described on `page`. -/
def entry (moduleName page : Text) : Item → Entry
  | .whole m => ⟨m.name, m.name, page⟩
  | .type c => .onPage page (qualify moduleName c.name) c.name c.name
  | .method c f =>
    .onPage page (qualify (qualify moduleName c.name) f.name) f.name f.name
  | .member c f =>
    .onPage page (qualify (qualify moduleName c.name) f.name) (qualify c.name f.name) c.name
  | .function f => .onPage page (qualify moduleName f.name) f.name f.name

def isPrivate : Item → Bool
  | .method _ f => f.isPrivate
  | .function f => f.isPrivate
  | _ => false

def isEnumMethod : Item → Bool
  | .method c _ => c.isEnum
  | _ => false

theorem method_mem_ofModule {m : ModuleDoc} {c : ClassDoc} {f : FunctionDoc}
    (hc : c ∈ m.classes) (hf : f ∈ c.methods) : .method c f ∈ ofModule m := by
  have hclass : .method c f ∈ ofClass c :=
    List.mem_cons_of_mem _ (List.mem_append_left _ (List.mem_map_of_mem hf))
  exact List.mem_cons_of_mem _ (List.mem_append_left _ (List.mem_flatMap.mpr ⟨c, hc, hclass⟩))

theorem function_mem_ofModule {m : ModuleDoc} {f : FunctionDoc} (hf : f ∈ m.functions) :
    .function f ∈ ofModule m :=
  List.mem_cons_of_mem _ (List.mem_append_right _ (List.mem_map_of_mem hf))

theorem moduleDefinitions_eq (m : ModuleDoc) (page : Text) :
    Symbol.moduleDefinitions m page = (ofModule m).map (entry m.name page) := by
  have hclass : Symbol.classDefinitions page m.name =
      fun c => (ofClass c).map (entry m.name page) := by
    funext c
    cases henum : c.isEnum with
    | true => simp [Symbol.classDefinitions, ofClass, henum, entry, Function.comp_def]
    | false => simp [Symbol.classDefinitions, ofClass, henum, entry, Function.comp_def]
  simp [Symbol.moduleDefinitions, ofModule, hclass, entry, List.map_flatMap, Function.comp_def]

/-- What a module adds to an empty registry are entries of its items. -/
theorem exists_of_mem_addModule {m : ModuleDoc} {page : Text} {e : Symbol.Entry}
    (h : e ∈ (({} : Symbol.Registry).addModule m page).entries) :
    ∃ item ∈ ofModule m, item.entry m.name page = e := by
  have hadd := Symbol.Registry.addModule_ofDefinitions [] m page
  rw [List.nil_append] at hadd
  have hmem : e ∈ (Symbol.Registry.ofDefinitions (Symbol.moduleDefinitions m page)).entries :=
    hadd ▸ h
  have hdefinition := Symbol.mem_of_mem_firstDefinitions hmem
  rw [moduleDefinitions_eq] at hdefinition
  exact List.mem_map.mp hdefinition

end Item

namespace Page

open ApiManual.Markdown ApiManual.Symbol

/-- The page has the heading of a function, and its signature under that heading. -/
def Describes (index : Index) (scope : Text) (f : FunctionDoc) (page : Text) : Prop :=
  ∃ level between, (∀ b ∈ between, b.isHeading = false) ∧
    Shows page (.heading level (f.name ++ "()".toList) ::
      (between ++ [luaCode (signature index scope f)]))

def HasHeading (page name : Text) : Prop :=
  ∃ level, Shows page [.heading level name]

/-- The place that links to the item lead to is on the page. -/
def HasTarget (index : Index) (page : Text) : Item → Prop
  | .whole m => HasHeading page m.name
  | .type c => HasHeading page c.name
  | .member c _ => HasHeading page c.name
  | .method c f => Describes index (c.name ++ [':']) f page
  | .function f => Describes index [] f page

theorem hasHeading_of_mem {document : Document} {level : ℕ} {name : Text}
    (h : .heading level name ∈ document) : HasHeading document.render name := by
  obtain ⟨front, back, rfl⟩ := List.append_of_mem h
  exact ⟨level, shows_of_infix (by simp) ⟨front, back, by simp⟩⟩

theorem isHeading_paragraph (text : Text) : ∀ b ∈ paragraph text, b.isHeading = false := by
  intro b hb
  simp only [paragraph] at hb
  split at hb
  · cases hb
  · rw [List.mem_singleton.mp hb]
    rfl

theorem describes_of_infix {index : Index} {scope : Text} {level : ℕ} {f : FunctionDoc}
    {document : Document} (h : functionSection index scope level f <:+: document) :
    Describes index scope f document.render := by
  refine ⟨level, title index "Signature".toList :: linked index f.summary, ?_, ?_⟩
  · rw [List.forall_mem_cons]
    exact ⟨rfl, isHeading_paragraph _⟩
  · have hfront : .heading level (f.name ++ "()".toList) ::
        (title index "Signature".toList :: linked index f.summary ++
          [luaCode (signature index scope f)]) <+: functionSection index scope level f := by
      simp [functionSection]
    exact shows_of_infix (by simp) (hfront.isInfix.trans h)

/-! ## What a page describes -/

/-- A section with a heading of its own holds the parts of all that it shows. -/
theorem infix_section {α : Type} {shown : List α} {a : α} (ha : a ∈ shown) (heading : Block)
    (part : α → Document) :
    part a <:+: if shown.isEmpty then [] else heading :: shown.flatMap part := by
  have hne : ¬ shown.isEmpty := by simpa using List.ne_nil_of_mem ha
  have hpart : part a <:+: shown.flatMap part :=
    List.infix_of_mem_flatten (List.mem_map_of_mem ha)
  rw [if_neg hne]
  exact hpart.trans (List.suffix_cons _ _).isInfix

theorem infix_functionSections (index : Index) (scope : Text) (level : ℕ) {f : FunctionDoc}
    {functions : List FunctionDoc} (hf : f ∈ functions) (hpublic : f.isPrivate = false) :
    functionSection index scope (level + 1) f <:+:
      functionSections index scope level functions :=
  infix_section (List.mem_filter.mpr ⟨hf, by simp [hpublic]⟩) _ _

theorem infix_enumSections (index : Index) {c : ClassDoc} {classes : List ClassDoc}
    (hc : c ∈ classes) (henum : c.isEnum) :
    enumSection index 3 c <:+: enumSections index classes :=
  infix_section (List.mem_filter.mpr ⟨hc, henum⟩) _ _

theorem infix_classSections (index : Index) {c : ClassDoc} {classes : List ClassDoc}
    (hc : c ∈ classes) (henum : c.isEnum = false) :
    classSection index 3 c.name c.summary c.details c <:+: classSections index classes :=
  infix_section (List.mem_filter.mpr ⟨hc, by simp [henum]⟩) _
    fun c : ClassDoc => classSection index 3 c.name c.summary c.details c

theorem heading_mem_plainModulePage (index : Index) {m : ModuleDoc} {c : ClassDoc}
    (hc : c ∈ m.classes) : .heading 3 c.name ∈ plainModulePage index m := by
  cases henum : c.isEnum with
  | true =>
      have hsection := (infix_enumSections index hc henum).subset
      have hhead : .heading 3 c.name ∈ enumSection index 3 c := by simp [enumSection]
      simp [plainModulePage, hsection hhead]
  | false =>
      have hsection := (infix_classSections index hc henum).subset
      have hhead : .heading 3 c.name ∈ classSection index 3 c.name c.summary c.details c := by
        simp [classSection]
      simp [plainModulePage, hsection hhead]

theorem function_infix_plainModulePage (index : Index) {m : ModuleDoc} {f : FunctionDoc}
    (hf : f ∈ m.functions) (hpublic : f.isPrivate = false) :
    functionSection index [] 3 f <:+: plainModulePage index m := by
  have hsections : functionSections index [] 2 m.functions <:+: plainModulePage index m :=
    ⟨_, classSections index m.classes, rfl⟩
  exact (infix_functionSections index [] 2 hf hpublic).trans hsections

theorem method_infix_plainModulePage (index : Index) {m : ModuleDoc} {c : ClassDoc}
    {f : FunctionDoc} (hc : c ∈ m.classes) (henum : c.isEnum = false) (hf : f ∈ c.methods)
    (hpublic : f.isPrivate = false) :
    functionSection index (c.name ++ [':']) 5 f <:+: plainModulePage index m := by
  have hmethods : functionSections index (c.name ++ [':']) 4 c.methods <:+:
      classSection index 3 c.name c.summary c.details c := (List.suffix_append _ _).isInfix
  have hclasses : classSections index m.classes <:+: plainModulePage index m :=
    (List.suffix_append _ _).isInfix
  exact (infix_functionSections index _ 4 hf hpublic).trans
    (hmethods.trans ((infix_classSections index hc henum).trans hclasses))

theorem text_of_plain (index : Index) {m : ModuleDoc} (hplain : m.isClassModule = false) :
    text index m = (plainModulePage index m).render := by
  have hprimary : m.primaryClass? = none := by simp [ModuleDoc.primaryClass?, hplain]
  rw [text, ofModule, hprimary]

theorem hasTarget_of_class {index : Index} {m : ModuleDoc} (hplain : m.isClassModule = false)
    {c : ClassDoc} (hc : c ∈ m.classes) {item : Item} (hitem : item ∈ Item.ofClass c)
    (hpublic : item.isPrivate = false) (hmethod : item.isEnumMethod = false) :
    HasTarget index (text index m) item := by
  have hheading := hasHeading_of_mem (heading_mem_plainModulePage index hc)
  rw [text_of_plain index hplain]
  rw [Item.ofClass, List.mem_cons, List.mem_append] at hitem
  rcases hitem with rfl | hmem | hmem
  · exact hheading
  · obtain ⟨f, hf, rfl⟩ := List.mem_map.mp hmem
    exact describes_of_infix (method_infix_plainModulePage index hc hmethod hf hpublic)
  · split at hmem
    · obtain ⟨f, -, rfl⟩ := List.mem_map.mp hmem
      exact hheading
    · cases hmem

/-- What a plain module registers are its items, and all of them that are not private have
their places on its page.  The methods of an enumeration are left out. -/
theorem hasTarget_registered (index : Index) (m : ModuleDoc) (hplain : m.isClassModule = false) :
    (∀ page, ∀ e ∈ (({} : Registry).addModule m page).entries,
        ∃ item ∈ Item.ofModule m, item.entry m.name page = e) ∧
      ∀ item ∈ Item.ofModule m, item.isPrivate = false → item.isEnumMethod = false →
        HasTarget index (text index m) item := by
  refine ⟨fun page e he => Item.exists_of_mem_addModule he, ?_⟩
  intro item hitem hpublic hmethod
  rw [Item.ofModule, List.mem_cons, List.mem_append] at hitem
  rcases hitem with rfl | hmem | hmem
  · rw [text_of_plain index hplain]
    have hheading : .heading 1 m.name ∈ plainModulePage index m := by simp [plainModulePage]
    exact hasHeading_of_mem hheading
  · obtain ⟨c, hc, hclass⟩ := List.mem_flatMap.mp hmem
    exact hasTarget_of_class hplain hc hclass hpublic hmethod
  · obtain ⟨f, hf, rfl⟩ := List.mem_map.mp hmem
    rw [text_of_plain index hplain]
    exact describes_of_infix (function_infix_plainModulePage index hf hpublic)

def parseFunction : FunctionDoc := { name := "parse".toList }

def initFunction : FunctionDoc := { name := "init".toList }

/-- An enumeration with a member and a method. -/
def alignEnum : ClassDoc where
  name := "Align".toList
  fields := [{ name := "LEFT".toList }]
  methods := [parseFunction]
  isEnum := true

def alignModule : ModuleDoc where
  name := "ui".toList
  functions := [initFunction]
  classes := [alignEnum]

theorem hasTarget_alignModule :
    alignModule.isClassModule = false ∧
      .function initFunction ∈ Item.ofModule alignModule ∧
        HasTarget {} (text {} alignModule) (.function initFunction) := by
  have hitem : .function initFunction ∈ Item.ofModule alignModule :=
    Item.function_mem_ofModule (List.mem_singleton_self initFunction)
  exact ⟨rfl, hitem, (hasTarget_registered {} alignModule rfl).2 _ hitem rfl rfl⟩

/-- The method of the enumeration is public and has an entry, but no place on the page. -/
theorem not_hasTarget_enumMethod :
    let method : Item := .method alignEnum parseFunction
    alignModule.isClassModule = false ∧ method ∈ Item.ofModule alignModule ∧
      method.isPrivate = false ∧
      method.entry alignModule.name "/api/ui".toList =
        ⟨"ui.Align.parse".toList, "parse".toList, "/api/ui/#parse".toList⟩ ∧
      method.entry alignModule.name "/api/ui".toList ∈
        (({} : Registry).addModule alignModule "/api/ui".toList).entries ∧
      ¬ HasTarget {} (text {} alignModule) method := by
  intro method
  have hitem : method ∈ Item.ofModule alignModule :=
    Item.method_mem_ofModule (List.mem_singleton_self alignEnum)
      (List.mem_singleton_self parseFunction)
  have hmissing : ¬ parseFunction.name ++ "()".toList <:+: text {} alignModule := by
    decide +kernel
  refine ⟨rfl, hitem, rfl, by decide +kernel, by decide +kernel, ?_⟩
  rintro ⟨level, between, -, hshows⟩
  exact hmissing ((Block.infix_render_heading _ _).trans hshows.head_infix)

end Page
end ApiManual
