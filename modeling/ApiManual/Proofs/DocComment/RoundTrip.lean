import ApiManual.Proofs.DocComment.PrintedEntity

/-!
# Printing and reading modules

Reading the printed source of a module gives the module back.  The invariant is that the
reading stands outside all blocks and documents exactly the part of the module that has
been printed so far.
-/

namespace ApiManual
namespace DocComment

open Text

/-! ## One block -/

/-- Lines of a source at some place of it. -/
def Placed (ls : List PlacedLine) (lines : List Text) : Prop :=
  ls.map Prod.fst = lines.map SourceLine.ofText

theorem Placed.of_append {ls : List PlacedLine} {front back : List Text}
    (h : Placed ls (front ++ back)) :
    ∃ lf lb, ls = lf ++ lb ∧ Placed lf front ∧ Placed lb back := by
  unfold Placed at h
  rw [List.map_append] at h
  obtain ⟨lf, lb, rfl, hf, hb⟩ := List.map_eq_append_iff.mp h
  exact ⟨lf, lb, rfl, hf, hb⟩

namespace Reading

theorem reopen_eq {r : Reading} (hr : r.Outside) (block : Option DocBlock) (inUsage : Bool) :
    ({ ({ r with block, inUsage } : Reading) with block := none, inUsage := false } : Reading) =
      r := by
  obtain ⟨doc, moduleName, described, owners, block', inUsage', sawCode⟩ := r
  obtain ⟨hblock, husage⟩ := hr
  simp only at hblock husage
  rw [hblock, husage]

/-- The lines of a printed block and the line behind it attach a block that shows what was
printed. -/
theorem foldlM_preamble {r r' : Reading} (hr : r.Outside) {a : Preamble}
    (ha : a.Printable) {line : Text} (hline : (SourceLine.ofText line).isInner = false)
    (hattach : ∀ b, a.ReadAs b → r.attach b (SourceLine.ofText line).declaration = .ok r')
    {ls : List PlacedLine} (hls : Placed ls (a.lines ++ [line])) :
    ls.foldlM readLine r =
      .ok { r' with sawCode := r'.sawCode || (SourceLine.ofText line).isCode } := by
  obtain ⟨lb, lx, rfl, hlb, hlx⟩ := hls.of_append
  obtain ⟨⟨l, n⟩, lnil, rfl, rfl, hnil⟩ := List.map_eq_cons_iff.mp hlx
  rw [List.map_eq_nil_iff.mp hnil]
  have hsource : lb.map Prod.fst = a.sourceLines := hlb.trans ha.map_ofText
  have hdoc : ∀ x ∈ lb, x.1.isDoc := by
    intro x hx
    apply Preamble.Printable.isDoc a
    rw [← hsource]
    exact List.mem_map_of_mem hx
  have hread := ha.readAs_blockOf hsource
  have hne : lb ≠ [] := by
    rintro rfl
    have htags := ha.tagged
    have hempty : a.sourceLines = [] := hsource.symm
    simp [Preamble.sourceLines, htags] at hempty
  obtain ⟨first, others, rfl⟩ := List.exists_cons_of_ne_nil hne
  rw [List.forall_mem_cons] at hdoc
  obtain ⟨inUsage, hrun⟩ := foldlM_block hr hdoc.1 fun x hx => isInner_of_isDoc (hdoc.2 x hx)
  have hclose := readLine_close (r := { r with block := some (blockOf (first :: others)), inUsage })
    rfl (l := (SourceLine.ofText line, n)) hline
  rw [reopen_eq hr, hattach _ hread, ok_bind] at hclose
  have hplace := samePlace_attach (hattach _ hread)
  have hout : r'.Outside := ⟨hplace.1.trans hr.1, hplace.2.1.trans hr.2⟩
  have hnotDoc : (SourceLine.ofText line).isDoc = false := by
    cases h : SourceLine.ofText line <;> simp_all [SourceLine.isInner]
  rw [readLine_outside hout hnotDoc] at hclose
  rw [List.foldlM_append, hrun, ok_bind, List.foldlM_cons, hclose, ok_bind]
  rfl

/-! ## The part of a module that is read -/

/-- The reading documents this module and stands outside all blocks. -/
structure Describes (r : Reading) (m : ModuleDoc) : Prop where
  outside : r.Outside
  described : r.described = true
  moduleName : r.moduleName = some m.name
  doc : r.doc = { m with name := [] }

namespace Describes

variable {r : Reading} {m : ModuleDoc}

theorem setSawCode (h : r.Describes m) (sawCode : Bool) : Describes { r with sawCode } m :=
  ⟨h.outside, h.described, h.moduleName, h.doc⟩

theorem addFunction (h : r.Describes m) (f : FunctionDoc) :
    (r.addFunction f).Describes { m with functions := m.functions ++ [f] } where
  outside := h.outside
  described := h.described
  moduleName := h.moduleName
  doc := by
    rw [Reading.addFunction, h.doc]

theorem addMethod (h : r.Describes m) (number : ℕ) (f : FunctionDoc) :
    (r.addMethod number f).Describes
      { m with classes := m.classes.modify number fun c => { c with methods := c.methods ++ [f] } }
    where
  outside := h.outside
  described := h.described
  moduleName := h.moduleName
  doc := by
    rw [Reading.addMethod, h.doc]

end Describes

/-! ## Attaching printed blocks -/

theorem attachModule_described {r : Reading} (hr : r.described = true) {b : DocBlock}
    (hb : b.moduleTag? = none) (d : Declaration) : r.attachModule b d = .ok (r, false) := by
  rw [attachModule, hb]
  simp [isLeadingComment, hr]

theorem classTag?_eq_none {b : DocBlock}
    (hb : ∀ t ∈ b.operands, t.1 ≠ "class".toList ∧ t.1 ≠ "enum".toList) : b.classTag? = none := by
  have hclass : b.tag? "class".toList = none := tag?_eq_none fun t ht => (hb t ht).1
  have henum : b.tag? "enum".toList = none := tag?_eq_none fun t ht => (hb t ht).2
  rw [DocBlock.classTag?, hclass, henum]
  rfl

theorem moduleTag?_eq_none {b : DocBlock}
    (hb : ∀ t ∈ b.operands, t.1 ≠ "module".toList ∧ t.1 ≠ "classmod".toList) :
    b.moduleTag? = none := by
  have hmodule : b.tag? "module".toList = none := tag?_eq_none fun t ht => (hb t ht).1
  have hclassmod : b.tag? "classmod".toList = none := tag?_eq_none fun t ht => (hb t ht).2
  rw [DocBlock.moduleTag?, hmodule, hclassmod]
  rfl

theorem attach_function {r : Reading} (hr : r.described = true) {f : FunctionDoc}
    (hf : FunctionForm f) {b : DocBlock} (hb : (functionPreamble f).ReadAs b)
    (owner : Option Text) :
    r.attach b (.function owner f.name (f.params.map ParamDoc.name) false) =
      .ok (match owner.bind (List.lookup · r.owners) with
        | some number => r.addMethod number f
        | none => r.addFunction f) := by
  have htags : ∀ t ∈ b.operands, t.1 ∈ functionTags := by
    rw [hb.operands]
    exact functionPreamble_tags f
  have hnames := fun t ht => functionTags_ne t.1 (htags t ht)
  have hcheck : b.checkTags = .ok () :=
    checkTags_eq fun t ht => functionTags_documented t.1 (htags t ht)
  have hclass : b.classTag? = none := classTag?_eq_none fun t ht => (hnames t ht).1
  have hmodule : b.moduleTag? = none := moduleTag?_eq_none fun t ht => (hnames t ht).2.1
  have hfield : b.tag? "field".toList = none := tag?_eq_none fun t ht => (hnames t ht).2.2
  rw [attach, hcheck, ok_bind, attachModule_described hr hmodule, ok_bind]
  simp only [hclass, hfield, attachFunction, functionDoc_eq hf hb, ok_bind]
  cases owner.bind (List.lookup · r.owners) <;> rfl

/-- The state behind the block of a class, before any of its methods. -/
def openClass (r : Reading) (c : ClassDoc) : Reading :=
  { r with
    owners := (c.name, r.doc.classes.length) :: r.owners
    doc := { r.doc with classes := r.doc.classes ++ [{ c with methods := [] }] } }

theorem attach_class {r : Reading} (hr : r.described = true) {c : ClassDoc}
    (hc : ClassForm c) {b : DocBlock} (hb : (classPreamble c).ReadAs b) :
    r.attach b .other = .ok (r.openClass c) := by
  have hoperands : b.operands = (classWord c.isEnum, c.name) ::
      c.fields.map fun f => ("field".toList, fieldOperand f) := by
    rw [hb.operands]
    exact List.append_nil _
  have htags : ∀ t ∈ b.operands, t.1 ∈ documentedTags ∧
      t.1 ≠ "module".toList ∧ t.1 ≠ "classmod".toList := by
    rw [hoperands, List.forall_mem_cons, List.forall_mem_map]
    exact ⟨classWord_documented c.isEnum, fun f _ => field_documented⟩
  have hcheck : b.checkTags = .ok () := checkTags_eq fun t ht => (htags t ht).1
  have hmodule : b.moduleTag? = none := moduleTag?_eq_none fun t ht => (htags t ht).2
  obtain ⟨t, htag, hoperand⟩ := classTag?_class hoperands
  have hname : className t = .ok c.name :=
    className_eq hc.name.noColon hc.name.isWord.trimmed hc.name.ne_nil hoperand
  have hdescriptions : b.descriptions = (c.summary, c.details) :=
    hc.description.descriptions_eq hb.text
  rw [attach, hcheck, ok_bind, attachModule_described hr hmodule, ok_bind]
  simp only [htag, attachClass, hname, ok_bind, Bool.false_eq_true, if_false, hdescriptions,
    fields_mapM hc hoperands, Declaration.target?]
  rfl

def openModule (m : ModuleDoc) : Reading where
  doc := {
    name := []
    summary := m.summary
    details := m.details
    isClassModule := m.isClassModule }
  moduleName := some m.name
  described := true

theorem attach_module {m : ModuleDoc} (hm : ModuleForm m) {b : DocBlock}
    (hb : (modulePreamble m).ReadAs b) :
    ({} : Reading).attach b .other = .ok (openModule m) := by
  have hoperands : b.operands = [(moduleWord m.isClassModule, m.name)] := by
    rw [hb.operands]
    exact List.append_nil _
  have htags : ∀ t ∈ b.operands, t.1 ∈ documentedTags ∧
      (t.1 ≠ "class".toList ∧ t.1 ≠ "enum".toList) ∧ t.1 ≠ "field".toList := by
    rw [hoperands, List.forall_mem_singleton]
    exact moduleWord_documented m.isClassModule
  have hcheck : b.checkTags = .ok () := checkTags_eq fun t ht => (htags t ht).1
  have hclass : b.classTag? = none := classTag?_eq_none fun t ht => (htags t ht).2.1
  have hfield : b.tag? "field".toList = none := tag?_eq_none fun t ht => (htags t ht).2.2
  obtain ⟨t, htag, hoperand⟩ := moduleTag?_module hoperands
  have hname : DocComment.moduleName t = .ok m.name := moduleName_eq hm.word hm.named hoperand
  have hdescriptions : b.descriptions = (m.summary, m.details) :=
    hm.description.descriptions_eq hb.text
  have hmodule : ({} : Reading).attachModule b .other = .ok (openModule m, true) := by
    rw [attachModule, htag]
    simp only [hname, ok_bind, describe, hdescriptions]
    rfl
  rw [attach, hcheck, ok_bind, hmodule, ok_bind]
  simp only [hclass, hfield]
  rfl

/-! ## Entities in their order -/

/-- What each of some texts does to the reading, all of them do one after the other. -/
theorem foldlM_flatMap {α : Type} {lines : α → List Text} (I : List α → Reading → Prop)
    {entities : List α}
    (hstep : ∀ done, ∀ a ∈ entities, ∀ r, I done r → ∀ ls, Placed ls (lines a) →
      ∃ r', ls.foldlM readLine r = .ok r' ∧ I (done ++ [a]) r')
    (done : List α) {r : Reading} (hr : I done r) {ls : List PlacedLine}
    (hls : Placed ls (entities.flatMap lines)) :
    ∃ r', ls.foldlM readLine r = .ok r' ∧ I (done ++ entities) r' := by
  induction entities generalizing done r ls with
  | nil =>
      rw [List.map_eq_nil_iff.mp hls, List.append_nil]
      exact ⟨r, rfl, hr⟩
  | cons a entities ih =>
      rw [List.flatMap_cons] at hls
      obtain ⟨lf, lb, rfl, hlf, hlb⟩ := hls.of_append
      obtain ⟨s, hs, hIs⟩ := hstep done a List.mem_cons_self r hr lf hlf
      obtain ⟨r', hr', hIr'⟩ :=
        ih (fun done b hb => hstep done b (List.mem_cons_of_mem a hb)) (done ++ [a]) hIs hlb
      refine ⟨r', ?_, ?_⟩
      · rw [List.foldlM_append, hs, ok_bind, hr']
      · rw [List.append_assoc] at hIr'
        exact hIr'

theorem readLine_function {r r' : Reading} (hr : r.Outside) {owner : Option Text}
    (howner : ∀ path ∈ owner, Dotted path) {f : FunctionDoc} (hf : FunctionForm f)
    (hattach : ∀ b, (functionPreamble f).ReadAs b →
      r.attach b (.function owner f.name (f.params.map ParamDoc.name) false) = .ok r')
    {ls : List PlacedLine} (hls : Placed ls (functionLines owner f)) :
    ls.foldlM readLine r = .ok { r' with sawCode := true } := by
  have hcode := ofText_declarationLine owner f
  have hinner : (SourceLine.ofText (declarationLine owner f)).isInner = false := by
    rw [hcode]
    rfl
  have hread := @foldlM_preamble r r' hr _ hf.printable _ hinner
  rw [hcode] at hread
  have hdeclaration : (SourceLine.code (declarationLine owner f)).declaration =
      .function owner f.name (f.params.map ParamDoc.name) false :=
    declaration_ofLine howner hf
  rw [hdeclaration] at hread
  have h := hread hattach hls
  rw [SourceLine.isCode, Bool.or_true] at h
  exact h

theorem Describes.readFunction {r : Reading} {m : ModuleDoc} (h : r.Describes m)
    {f : FunctionDoc} (hf : FunctionForm f) {ls : List PlacedLine}
    (hls : Placed ls (functionLines none f)) :
    ∃ r', ls.foldlM readLine r = .ok r' ∧
      r'.Describes { m with functions := m.functions ++ [f] } := by
  have hread := readLine_function h.outside dotted_none hf
    (fun b hb => attach_function h.described hf hb none) hls
  exact ⟨_, hread, (h.addFunction f).setSawCode true⟩

theorem Describes.readMethod {r : Reading} {m : ModuleDoc} (h : r.Describes m)
    {owner : Text} (howner : Dotted owner) {number : ℕ}
    (hnumber : r.owners.lookup owner = some number) {f : FunctionDoc} (hf : FunctionForm f)
    {ls : List PlacedLine} (hls : Placed ls (functionLines (some owner) f)) :
    ∃ r', ls.foldlM readLine r = .ok r' ∧ r'.owners = r.owners ∧
      r'.Describes { m with
        classes := m.classes.modify number fun c => { c with methods := c.methods ++ [f] } } := by
  have hattach : ∀ b, (functionPreamble f).ReadAs b →
      r.attach b (.function (some owner) f.name (f.params.map ParamDoc.name) false) =
        .ok (r.addMethod number f) := by
    intro b hb
    rw [attach_function h.described hf hb (some owner), Option.bind_some, hnumber]
  have hread := readLine_function h.outside (dotted_some howner) hf hattach hls
  exact ⟨_, hread, rfl, (h.addMethod number f).setSawCode true⟩

theorem modify_concat {α : Type} (l : List α) (a : α) (f : α → α) :
    (l ++ [a]).modify l.length f = l ++ [f a] := by
  induction l with
  | nil => rfl
  | cons b l ih => exact congrArg (b :: ·) ih

theorem Describes.openClass {r : Reading} {m : ModuleDoc} (h : r.Describes m) (c : ClassDoc) :
    (r.openClass c).Describes { m with classes := m.classes ++ [{ c with methods := [] }] } ∧
      (r.openClass c).owners.lookup c.name = some m.classes.length := by
  refine ⟨⟨h.outside, h.described, h.moduleName, ?_⟩, ?_⟩
  · rw [Reading.openClass, h.doc]
  · rw [Reading.openClass, h.doc]
    exact List.lookup_cons_self

theorem isInner_blank : (SourceLine.ofText []).isInner = false := by
  rw [ofText_nil]
  rfl

/-- The methods of a class find it as the newest owner of its name. -/
theorem Describes.readMethods {r : Reading} {m : ModuleDoc} {c : ClassDoc} (hc : ClassForm c)
    (h : r.Describes { m with classes := m.classes ++ [{ c with methods := [] }] })
    (hnumber : r.owners.lookup c.name = some m.classes.length) {ls : List PlacedLine}
    (hls : Placed ls (c.methods.flatMap (functionLines (some c.name)))) :
    ∃ r', ls.foldlM readLine r = .ok r' ∧ r'.Describes { m with classes := m.classes ++ [c] } := by
  let read (done : List FunctionDoc) (r : Reading) : Prop :=
    r.Describes { m with classes := m.classes ++ [{ c with methods := done }] } ∧
      r.owners.lookup c.name = some m.classes.length
  have hstep : ∀ done, ∀ f ∈ c.methods, ∀ r, read done r → ∀ ls,
      Placed ls (functionLines (some c.name) f) →
        ∃ r', ls.foldlM readLine r = .ok r' ∧ read (done ++ [f]) r' := by
    intro done f hf s hs ls hls
    obtain ⟨s', hread, howners, hs'⟩ := hs.1.readMethod hc.name hs.2 (hc.methods f hf) hls
    simp only [modify_concat] at hs'
    refine ⟨s', hread, hs', ?_⟩
    rw [howners]
    exact hs.2
  obtain ⟨r', hr', hread, -⟩ := foldlM_flatMap read hstep [] ⟨h, hnumber⟩ hls
  exact ⟨r', hr', hread⟩

theorem Describes.readClass {r : Reading} {m : ModuleDoc} (h : r.Describes m) {c : ClassDoc}
    (hc : ClassForm c) {ls : List PlacedLine} (hls : Placed ls (classLines c)) :
    ∃ r', ls.foldlM readLine r = .ok r' ∧
      r'.Describes { m with classes := m.classes ++ [c] } := by
  obtain ⟨lf, lb, rfl, hlf, hlb⟩ := hls.of_append
  have hattach : ∀ b, (classPreamble c).ReadAs b →
      r.attach b (SourceLine.ofText []).declaration = .ok (r.openClass c) := by
    intro b hb
    rw [ofText_nil]
    exact attach_class h.described hc hb
  have hblock := foldlM_preamble h.outside hc.printable isInner_blank hattach hlf
  obtain ⟨hopen, hnumber⟩ := h.openClass c
  have hopen' := hopen.setSawCode ((r.openClass c).sawCode || (SourceLine.ofText []).isCode)
  obtain ⟨r', hr', hread⟩ := hopen'.readMethods hc hnumber hlb
  refine ⟨r', ?_, hread⟩
  rw [List.foldlM_append, hblock, ok_bind, hr']

theorem readModule {m : ModuleDoc} (hm : ModuleForm m) {ls : List PlacedLine}
    (hls : Placed ls (moduleLines m)) :
    ∃ r : Reading, ls.foldlM readLine {} = .ok r ∧ r.Describes m := by
  obtain ⟨lf, lb, rfl, hlf, hlb⟩ := hls.of_append
  obtain ⟨lc, lg, rfl, hlc, hlg⟩ := hlb.of_append
  have hattach : ∀ b, (modulePreamble m).ReadAs b →
      ({} : Reading).attach b (SourceLine.ofText []).declaration = .ok (openModule m) := by
    intro b hb
    rw [ofText_nil]
    exact attach_module hm hb
  have hblock := foldlM_preamble ⟨rfl, rfl⟩ hm.printable isInner_blank hattach hlf
  have hopen : (openModule m).Describes { m with classes := [], functions := [] } :=
    ⟨⟨rfl, rfl⟩, rfl, rfl, rfl⟩
  have hopen' := hopen.setSawCode ((openModule m).sawCode || (SourceLine.ofText []).isCode)
  obtain ⟨s, hs, hclasses⟩ := foldlM_flatMap
    (fun done r => Describes r { m with classes := done, functions := [] })
    (fun done c hc r hr ls hls => hr.readClass (hm.classes c hc) hls) [] hopen' hlc
  obtain ⟨r, hr, hfunctions⟩ := foldlM_flatMap
    (fun done r => Describes r { m with functions := done })
    (fun done f hf r hr ls hls => hr.readFunction (hm.functions f hf) hls) [] hclasses hlg
  refine ⟨r, ?_, hfunctions⟩
  rw [List.foldlM_append, hblock, ok_bind, List.foldlM_append, hs, ok_bind, hr]

theorem Describes.finish {r : Reading} {m : ModuleDoc} (h : r.Describes m)
    (hclass : m.isClassModule → m.classes ≠ []) (name : Text) : r.finish name = .ok m := by
  have hcond : ¬(m.isClassModule && m.classes.isEmpty) := by
    rw [Bool.and_eq_true, List.isEmpty_iff]
    rintro ⟨hkind, hempty⟩
    exact hclass hkind hempty
  rw [finish_outside h.outside, conclude, h.doc, h.moduleName]
  exact if_neg hcond

end Reading

/-! ## Files -/

theorem map_fst_placedLines (source : Text) :
    (placedLines source).map Prod.fst = (lines source).map SourceLine.ofText := by
  calc
    (placedLines source).map Prod.fst
      = ((lines source).zipIdx 1).map (SourceLine.ofText ∘ Prod.fst) := by
        rw [placedLines, numberedLines, List.map_map]
        rfl
    _ = (((lines source).zipIdx 1).map Prod.fst).map SourceLine.ofText := by
        rw [List.map_map]
    _ = (lines source).map SourceLine.ofText := by
        rw [List.zipIdx_map_fst]

theorem fileLine_functionLines {owner : Option Text} (howner : ∀ path ∈ owner, Dotted path)
    {f : FunctionDoc} (hf : FunctionForm f) : ∀ line ∈ functionLines owner f, FileLine line := by
  intro line hline
  rcases List.mem_append.mp hline with hblock | hdeclaration
  · exact hf.printable.fileLine line hblock
  · rw [List.mem_singleton.mp hdeclaration]
    exact fileLine_declarationLine howner hf

theorem fileLine_block {a : Preamble} (ha : a.Printable) :
    ∀ line ∈ a.lines ++ [[]], FileLine line := by
  intro line hline
  rcases List.mem_append.mp hline with hblock | hblank
  · exact ha.fileLine line hblock
  · rw [List.mem_singleton.mp hblank]
    constructor <;> simp

theorem fileLine_classLines {c : ClassDoc} (hc : ClassForm c) :
    ∀ line ∈ classLines c, FileLine line := by
  intro line hline
  rcases List.mem_append.mp hline with hblock | hmethods
  · exact fileLine_block hc.printable line hblock
  · obtain ⟨f, hf, hmem⟩ := List.mem_flatMap.mp hmethods
    exact fileLine_functionLines (dotted_some hc.name) (hc.methods f hf) line hmem

theorem fileLine_moduleLines {m : ModuleDoc} (hm : ModuleForm m) :
    ∀ line ∈ moduleLines m, FileLine line := by
  intro line hline
  rcases List.mem_append.mp hline with hblock | hentities
  · exact fileLine_block hm.printable line hblock
  · rcases List.mem_append.mp hentities with hclasses | hfunctions
    · obtain ⟨c, hc, hmem⟩ := List.mem_flatMap.mp hclasses
      exact fileLine_classLines (hm.classes c hc) line hmem
    · obtain ⟨f, hf, hmem⟩ := List.mem_flatMap.mp hfunctions
      exact fileLine_functionLines dotted_none (hm.functions f hf) line hmem

theorem placed_printModule {m : ModuleDoc} (hm : ModuleForm m) :
    Placed (placedLines (printModule m)) (moduleLines m) := by
  rw [Placed, map_fst_placedLines, printModule, lines_flatMap (fileLine_moduleLines hm)]

/-- A module in normal form is read back from its printed source, wherever that source
stands. -/
theorem readAt_printModule {m : ModuleDoc} (hm : ModuleForm m) (path : Text) :
    readAt path (printModule m) = .ok m := by
  obtain ⟨r, hr, hdescribes⟩ := Reading.readModule hm (placed_printModule hm)
  rw [readAt, readSource, Reading.run_numberedLines, hr, ok_bind]
  exact hdescribes.finish hm.classFirst _

/-! ## A printed module -/

def stepParam : ParamDoc where
  name := "step".toList
  type := .named "number".toList
  details := "How far.".toList
  optional := true
  defaultValue := some "1".toList

def restParam : ParamDoc where
  name := "...".toList

def addMethod : FunctionDoc where
  name := "add".toList
  summary := "Counts on.".toList
  params := [stepParam, restParam]
  returns := [{ type := .callable [.string] [.boolean], details := "A handle.".toList }]
  usage := some "c.add(2)\n  -- twice".toList
  visibility := .prot

def counterClass : ClassDoc where
  name := "Event.Counter".toList
  fields := [{ name := "limit".toList, type := some (.named "number".toList) }]
  methods := [addMethod]

def modeEnum : ClassDoc where
  name := "Mode".toList
  fields := [{ name := "OFF".toList, details := "Not counting.".toList, visibility := .priv }]
  isEnum := true

/-- A class module with a class, an enumeration and a function. -/
def counterModule : ModuleDoc where
  name := "counters".toList
  summary := "Counts events.".toList
  details := "Safe to share.\n\n  See the guide.".toList
  functions := [{ name := "reset".toList }]
  classes := [counterClass, modeEnum]
  isClassModule := true

theorem detailsForm_nil : DetailsForm [] := ⟨rfl, by simp, by simp⟩

theorem descriptionForm_nil : DescriptionForm [] [] :=
  ⟨rfl, by decide, rfl, by decide, fun _ => rfl⟩

theorem typeForm_nil {type : LuaType} (htype : TypeExpr.WellFormed type)
    (hline : '\n' ∉ type.text) : TypeForm type [] where
  wellFormed := htype
  oneLine := hline
  behind := detailsForm_nil
  separate := ⟨by simp, by simp, by simp, by simp⟩

theorem wellFormed_number : TypeExpr.WellFormed (.named "number".toList) := by
  have hnumber := TypeExpr.component_word (s := "number".toList) (by decide) (by decide) rfl
  exact Or.inr ⟨"number".toList, rfl, hnumber.2.parsed⟩

theorem stepParam_form : ParamForm stepParam where
  name := Or.inr (by decide)
  notSelf := by decide
  type := {
    wellFormed := wellFormed_number
    oneLine := by decide
    behind := by decide
    separate := .of_isAlpha rfl rfl }
  unmarked := by decide
  default := by
    intro value hvalue
    cases hvalue
    exact ⟨by decide, by decide, rfl⟩

theorem restParam_form : ParamForm restParam where
  name := Or.inl rfl
  notSelf := by decide
  type := typeForm_nil (Or.inl .any) (by decide)
  unmarked := by decide
  default := by
    intro value hvalue
    cases hvalue

theorem addMethod_form : FunctionForm addMethod where
  name := by decide
  description := ⟨by decide, by decide, by decide, by decide, by decide⟩
  params := by
    intro p hp
    rcases List.mem_cons.mp hp with rfl | hp
    · exact stepParam_form
    · rw [List.mem_singleton.mp hp]
      exact restParam_form
  returns := by
    intro r hr
    have hpart : TypeExpr.Part (.callable [.string] [.boolean]) := by
      constructor
      · intro t ht
        rw [List.mem_singleton.mp ht]
        exact .string
      · intro t ht
        rw [List.mem_singleton.mp ht]
        exact .boolean
    rw [List.mem_singleton.mp hr]
    exact {
      wellFormed := Or.inl hpart
      oneLine := by decide
      behind := by decide
      separate := .of_isAlpha rfl rfl }
  usage := by
    intro sample hsample
    cases hsample
    exact ⟨by decide, by decide, by decide, by decide⟩

theorem counterClass_form : ClassForm counterClass where
  name := by decide
  description := descriptionForm_nil
  fields := by
    intro f hf
    rw [List.mem_singleton.mp hf]
    exact {
      named := by decide
      word := by decide
      unmarked := by decide
      untyped := by decide
      details := detailsForm_nil
      type := by
        intro t ht
        cases ht
        exact typeForm_nil wellFormed_number (by decide)
      typeFirst := by simp }
  methods := by
    intro f hf
    rw [List.mem_singleton.mp hf]
    exact addMethod_form

theorem modeEnum_form : ClassForm modeEnum where
  name := by decide
  description := descriptionForm_nil
  fields := by
    intro f hf
    rw [List.mem_singleton.mp hf]
    exact {
      named := by decide
      word := by decide
      unmarked := by decide
      untyped := fun _ => rfl
      details := by decide
      type := by simp
      typeFirst := by decide }
  methods := by
    intro f hf
    cases hf

theorem counterModule_form : ModuleForm counterModule where
  named := by decide
  word := by decide
  description := ⟨by decide, by decide, by decide, by decide, by decide⟩
  classes := by
    intro c hc
    rcases List.mem_cons.mp hc with rfl | hc
    · exact counterClass_form
    · rw [List.mem_singleton.mp hc]
      exact modeEnum_form
  functions := by
    intro f hf
    rw [List.mem_singleton.mp hf]
    exact {
      name := by decide
      description := descriptionForm_nil
      params := by simp
      returns := by simp
      usage := by simp }
  classFirst := fun _ => List.cons_ne_nil _ _

theorem readAt_counterModule :
    ModuleForm counterModule ∧
      readAt "lua/counter.lua".toList (printModule counterModule) = .ok counterModule :=
  ⟨counterModule_form, readAt_printModule counterModule_form "lua/counter.lua".toList⟩

end DocComment
end ApiManual
