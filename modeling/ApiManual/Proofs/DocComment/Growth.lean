import ApiManual.Proofs.DocComment.Layout

/-!
# Documentation that grows

What a block documents is put behind what is documented already: a new class behind the
classes, a function behind the functions of the module or behind the methods of a class.
So the text behind a blank line takes nothing back from the text in front of it.
-/

namespace ApiManual

/-! ## Growth -/

/-- The class is the same but for methods that have come behind its own. -/
structure ClassDoc.Grows (c c' : ClassDoc) : Prop where
  rest : c' = { c with methods := c'.methods }
  methods : c.methods <+: c'.methods

/-- Functions and classes have come behind those of the module, and methods to its classes. -/
structure ModuleDoc.Grows (m m' : ModuleDoc) : Prop where
  functions : m.functions <+: m'.functions
  classes : ∀ (i : ℕ) (c : ClassDoc), m.classes[i]? = some c →
    ∃ c', m'.classes[i]? = some c' ∧ c.Grows c'

theorem ClassDoc.Grows.refl (c : ClassDoc) : c.Grows c :=
  ⟨rfl, List.prefix_rfl⟩

theorem ClassDoc.Grows.trans {c c' c'' : ClassDoc} (h : c.Grows c') (h' : c'.Grows c'') :
    c.Grows c'' := by
  refine ⟨?_, h.methods.trans h'.methods⟩
  rw [h'.rest, h.rest]

theorem ClassDoc.Grows.addMethod (c : ClassDoc) (f : FunctionDoc) :
    c.Grows { c with methods := c.methods ++ [f] } :=
  ⟨rfl, List.prefix_append _ _⟩

namespace ModuleDoc.Grows

variable {m m' m'' : ModuleDoc}

/-- The other parts of a module have no say in its growth. -/
theorem of_eq (hfunctions : m'.functions = m.functions) (hclasses : m'.classes = m.classes) :
    m.Grows m' where
  functions := by rw [hfunctions]
  classes := fun i c hc => ⟨c, by rw [hclasses, hc], .refl c⟩

theorem refl (m : ModuleDoc) : m.Grows m :=
  of_eq rfl rfl

theorem trans (h : m.Grows m') (h' : m'.Grows m'') : m.Grows m'' where
  functions := h.functions.trans h'.functions
  classes := by
    intro i c hc
    obtain ⟨c', hc', hgrows⟩ := h.classes i c hc
    obtain ⟨c'', hc'', hgrows'⟩ := h'.classes i c' hc'
    exact ⟨c'', hc'', hgrows.trans hgrows'⟩

theorem addClass (m : ModuleDoc) (c : ClassDoc) :
    m.Grows { m with classes := m.classes ++ [c] } where
  functions := List.prefix_rfl
  classes := by
    intro i d hd
    obtain ⟨hi, -⟩ := List.getElem?_eq_some_iff.mp hd
    exact ⟨d, by rw [List.getElem?_append_left hi, hd], .refl d⟩

theorem addFunction (m : ModuleDoc) (f : FunctionDoc) :
    m.Grows { m with functions := m.functions ++ [f] } where
  functions := List.prefix_append _ _
  classes := fun _ c hc => ⟨c, hc, .refl c⟩

theorem modifyClass (m : ModuleDoc) (number : ℕ) {change : ClassDoc → ClassDoc}
    (hchange : ∀ c : ClassDoc, c.Grows (change c)) :
    m.Grows { m with classes := m.classes.modify number change } where
  functions := List.prefix_rfl
  classes := by
    intro i c hc
    rw [List.getElem?_modify, hc]
    by_cases hi : number = i
    · exact ⟨change c, by simp [hi], hchange c⟩
    · exact ⟨c, by simp [hi], .refl c⟩

end ModuleDoc.Grows

namespace DocComment

open ApiManual.Text

namespace Reading

variable {r r' : Reading}

/-! ## Blocks -/

/-- What attaching a block to a declaration adds: a class and the names it stands for, a
function in one place, or nothing. -/
inductive Attaches (r : Reading) (b : DocBlock) (d : Declaration) (r' : Reading) : Prop
  | addsClass (tag : Tag) (c : ClassDoc) (htag : b.classTag? = some (tag, c.isEnum))
      (hname : className tag = .ok c.name) (hmethods : c.methods = [])
      (hclasses : r'.doc.classes = r.doc.classes ++ [c])
      (hfunctions : r'.doc.functions = r.doc.functions)
      (howners : ∀ name, List.lookup name r'.owners =
        if name = c.name ∨ d.target? = some name then some r.doc.classes.length
        else List.lookup name r.owners)
  | addsMethod (owner : Option Text) (name : Text) (args : List Text) (isLocal : Bool)
      (f : FunctionDoc) (number : ℕ) (htag : b.classTag? = none)
      (hd : d = .function owner name args isLocal) (hf : functionDoc b name args isLocal = .ok f)
      (howner : owner.bind (List.lookup · r.owners) = some number)
      (hclasses : r'.doc.classes =
        r.doc.classes.modify number fun c => { c with methods := c.methods ++ [f] })
      (hfunctions : r'.doc.functions = r.doc.functions) (howners : r'.owners = r.owners)
  | addsFunction (owner : Option Text) (name : Text) (args : List Text) (isLocal : Bool)
      (f : FunctionDoc) (htag : b.classTag? = none)
      (hd : d = .function owner name args isLocal) (hf : functionDoc b name args isLocal = .ok f)
      (howner : owner.bind (List.lookup · r.owners) = none)
      (hclasses : r'.doc.classes = r.doc.classes)
      (hfunctions : r'.doc.functions = r.doc.functions ++ [f]) (howners : r'.owners = r.owners)
  | addsNothing (htag : b.classTag? = none) (hd : d.isFunction = false)
      (hclasses : r'.doc.classes = r.doc.classes)
      (hfunctions : r'.doc.functions = r.doc.functions) (howners : r'.owners = r.owners)

theorem content_of_attachModule {b : DocBlock} {d : Declaration} {describes : Bool}
    (h : r.attachModule b d = .ok (r', describes)) :
    r'.doc.classes = r.doc.classes ∧ r'.doc.functions = r.doc.functions ∧
      r'.owners = r.owners := by
  unfold attachModule at h
  split at h
  · obtain ⟨name, -, h⟩ := exists_of_bind_ok h
    cases h
    exact ⟨rfl, rfl, rfl⟩
  · split at h
    · cases h
      exact ⟨rfl, rfl, rfl⟩
    · cases h
      exact ⟨rfl, rfl, rfl⟩

theorem lookup_cons_if (name bound : Text) (number : ℕ) (owners : List (Text × ℕ)) :
    List.lookup name ((bound, number) :: owners) =
      if name = bound then some number else List.lookup name owners := by
  rw [List.lookup_cons]
  by_cases h : name = bound
  · simp [h]
  · simp [h, beq_false_of_ne h]

theorem attaches_of_attachClass {b : DocBlock} {t : Tag} {isEnum : Bool} {d : Declaration}
    {describes : Bool} (htag : b.classTag? = some (t, isEnum))
    (h : r.attachClass b t isEnum d describes = .ok r') : r.Attaches b d r' := by
  unfold attachClass at h
  obtain ⟨name, hname, h⟩ := exists_of_bind_ok h
  obtain ⟨fields, -, h⟩ := exists_of_bind_ok h
  cases h
  refine .addsClass t _ htag hname rfl rfl rfl ?_
  intro other
  cases htarget : d.target? with
  | none => simp [lookup_cons_if]
  | some target =>
      simp only [lookup_cons_if, Option.some.injEq]
      by_cases hother : other = target
      · simp [hother]
      · simp [hother, Ne.symm hother]

theorem attaches_of_attachFunction {b : DocBlock} {d : Declaration} (htag : b.classTag? = none)
    (h : r.attachFunction b d = .ok r') : r.Attaches b d r' := by
  unfold attachFunction at h
  split at h
  · rename_i owner name args isLocal
    obtain ⟨f, hf, h⟩ := exists_of_bind_ok h
    split at h
    · rename_i number howner
      cases h
      exact .addsMethod owner name args isLocal f number htag rfl hf howner rfl rfl rfl
    · rename_i howner
      cases h
      exact .addsFunction owner name args isLocal f htag rfl hf howner rfl rfl rfl
  · rename_i hother
    cases h
    refine .addsNothing htag ?_ rfl rfl rfl
    cases d with
    | function owner name args isLocal => exact absurd rfl (hother owner name args isLocal)
    | assignment target => rfl
    | other => rfl

/-- The description of the module is nothing that a block adds. -/
theorem Attaches.of_content {s : Reading} {b : DocBlock} {d : Declaration}
    (hs : s.doc.classes = r.doc.classes ∧ s.doc.functions = r.doc.functions ∧
      s.owners = r.owners) (h : s.Attaches b d r') : r.Attaches b d r' := by
  obtain ⟨hc, hf, ho⟩ := hs
  cases h with
  | addsClass tag c htag hname hmethods hclasses hfunctions howners =>
      rw [hc] at hclasses howners
      rw [hf] at hfunctions
      rw [ho] at howners
      exact .addsClass tag c htag hname hmethods hclasses hfunctions howners
  | addsMethod owner name args isLocal f number htag hd hdoc howner hclasses hfunctions howners =>
      rw [hc] at hclasses
      rw [hf] at hfunctions
      rw [ho] at howner howners
      exact .addsMethod owner name args isLocal f number htag hd hdoc howner hclasses hfunctions
        howners
  | addsFunction owner name args isLocal f htag hd hdoc howner hclasses hfunctions howners =>
      rw [hc] at hclasses
      rw [hf] at hfunctions
      rw [ho] at howner howners
      exact .addsFunction owner name args isLocal f htag hd hdoc howner hclasses hfunctions howners
  | addsNothing htag hd hclasses hfunctions howners =>
      exact .addsNothing htag hd (hclasses.trans hc) (hfunctions.trans hf) (howners.trans ho)

theorem attaches_of_attach {b : DocBlock} {d : Declaration} (h : r.attach b d = .ok r') :
    r.Attaches b d r' := by
  obtain ⟨s, describes, hmodule, hrest⟩ := exists_of_attach h
  refine .of_content (content_of_attachModule hmodule) ?_
  rcases hrest with ⟨t, isEnum, htag, hclass⟩ | ⟨htag, hfunction⟩
  · exact attaches_of_attachClass htag hclass
  · exact attaches_of_attachFunction htag hfunction

theorem grows_attach {b : DocBlock} {d : Declaration} (h : r.attach b d = .ok r') :
    r.doc.Grows r'.doc := by
  cases attaches_of_attach h with
  | addsClass _ c _ _ _ hclasses hfunctions =>
      exact (ModuleDoc.Grows.addClass r.doc c).trans (.of_eq hfunctions hclasses)
  | addsMethod _ _ _ _ f number _ _ _ _ hclasses hfunctions =>
      exact (ModuleDoc.Grows.modifyClass r.doc number fun c => .addMethod c f).trans
        (.of_eq hfunctions hclasses)
  | addsFunction _ _ _ _ f _ _ _ _ hclasses hfunctions =>
      exact (ModuleDoc.Grows.addFunction r.doc f).trans (.of_eq hfunctions hclasses)
  | addsNothing _ _ hclasses hfunctions => exact .of_eq hfunctions hclasses

/-! ## Lines -/

/-- What is to be shown of a property that every line keeps: it does not depend on the place
in the source, and it is kept where a block is attached. -/
structure KeptByBlocks (P : Reading → Prop) : Prop where
  place : ∀ (r : Reading) (block : Option DocBlock) (inUsage sawCode : Bool), P r →
    P { r with block, inUsage, sawCode }
  attach : ∀ {r r' : Reading} {b : DocBlock} {d : Declaration}, P r → r.attach b d = .ok r' → P r'

namespace KeptByBlocks

variable {P : Reading → Prop}

theorem close (hP : KeptByBlocks P) (hr : P r) {d : Declaration} (h : r.close d = .ok r') :
    P r' := by
  unfold Reading.close at h
  split at h
  · exact hP.attach (hP.place r none false r.sawCode hr) h
  · cases h
    exact hP.place r r.block false r.sawCode hr

theorem readLine (hP : KeptByBlocks P) (hr : P r) {l : PlacedLine} (h : r.readLine l = .ok r') :
    P r' := by
  obtain ⟨l, n⟩ := l
  cases l with
  | separator | tag _ _ | text _ =>
      cases h
      exact hP.place r _ _ _ hr
  | gap => exact hP.close hr h
  | code line =>
      obtain ⟨s, hclose, rfl⟩ := exists_of_map_ok h
      exact hP.place s _ _ true (hP.close hr hclose)

theorem foldlM (hP : KeptByBlocks P) (hr : P r) {ls : List PlacedLine}
    (h : ls.foldlM Reading.readLine r = .ok r') : P r' := by
  refine keeps_of_foldlM ?_ hr h
  intro s l s' hs hl
  exact hP.readLine hs hl

theorem run (hP : KeptByBlocks P) (hr : P r) {lines : List (Text × ℕ)}
    (h : r.run lines = .ok r') : P r' := by
  refine keeps_of_foldlM ?_ hr h
  rintro s ⟨line, n⟩ s' hs hstep
  have hline : s.readLine (.ofText line, n) = .ok s' := hstep
  exact hP.readLine hs hline

end KeptByBlocks

theorem keptByBlocks_grows (m : ModuleDoc) : KeptByBlocks fun r => m.Grows r.doc where
  place := fun _ _ _ _ h => h
  attach := fun h hattach => h.trans (grows_attach hattach)

theorem eq_of_conclude {name : Text} {m : ModuleDoc} (h : r.conclude name = .ok m) :
    m = { r.doc with name := r.moduleName.getD name } := by
  unfold conclude at h
  simp only at h
  split at h
  · cases h
  · exact (Except.ok.inj h).symm

theorem grows_finish {name : Text} {m : ModuleDoc} (h : r.finish name = .ok m) :
    r.doc.Grows m := by
  have hfinish : (r.close .other >>= fun r => r.conclude name) = .ok m := h
  obtain ⟨s, hclose, hm⟩ := exists_of_bind_ok hfinish
  rw [eq_of_conclude hm]
  exact ((keptByBlocks_grows r.doc).close (.refl _) hclose).trans (.of_eq rfl rfl)

end Reading

/-! ## Sources -/

/-- The last line of a source is blank, and it is ended. -/
def EndsBlank (source : Text) : Prop :=
  source.getLast? = some '\n' ∧ ∃ line, (lines source).getLast? = some line ∧ isBlankLine line

theorem not_endInBlock {source : Text} (h : EndsBlank source) :
    ¬ EndInBlock (placedLines source) := by
  obtain ⟨-, line, hlast, hblank⟩ := h
  obtain ⟨front, hlines⟩ := List.getLast?_eq_some_iff.mp hlast
  rw [placedLines, numberedLines, hlines, List.zipIdx_append, List.map_append]
  simp [endInBlock_concat, ofText_blankLine hblank, SourceLine.isDoc]

theorem placedLines_append {source : Text} (h : source.getLast? = some '\n') (behind : Text) :
    ∃ later, placedLines (source ++ behind) = placedLines source ++ later := by
  rw [placedLines, numberedLines, lines_append h, List.zipIdx_append, List.map_append]
  exact ⟨_, rfl⟩

/-- What is documented in front of a blank line stays when text is added. -/
theorem readAt_append_grows {path p q : Text} (hp : EndsBlank p) {m m' : ModuleDoc}
    (hm : readAt path p = .ok m) (hm' : readAt path (p ++ q) = .ok m') : m.Grows m' := by
  obtain ⟨later, hlater⟩ := placedLines_append hp.1 q
  rw [readAt, readSource, Reading.run_numberedLines] at hm hm'
  rw [hlater, List.foldlM_append, bind_assoc] at hm'
  obtain ⟨r, hr, hm⟩ := exists_of_bind_ok hm
  rw [hr, ok_bind] at hm'
  obtain ⟨s, hs, hm'⟩ := exists_of_bind_ok hm'
  have hout := Reading.outside_of_foldlM ⟨rfl, rfl⟩ (not_endInBlock hp) hr
  rw [Reading.finish_outside hout] at hm
  have hdoc : m.Grows r.doc := by
    rw [Reading.eq_of_conclude hm]
    exact .of_eq rfl rfl
  exact ((Reading.keptByBlocks_grows m).foldlM hdoc hs).trans (Reading.grows_finish hm')

/-- A class with a field and a method. -/
def boxSource : Text :=
  "---@class Box\n---@field w number\nlocal Box = {}\n---\nfunction Box:open() end\n \n".toList

/-- A method for the class, and another class of its name with a method. -/
def laterBoxSource : Text :=
  "---\nfunction Box:shut() end\n---@class Box\nlocal B = {}\n---\nfunction Box:fill() end\n".toList

def methodNames (m : ModuleDoc) : List (List Text) :=
  m.classes.map fun c => c.methods.map (·.name)

theorem readAt_append_grows_box :
    let path := "box.lua".toList
    EndsBlank boxSource ∧ ∃ m m', readAt path boxSource = .ok m ∧
      readAt path (boxSource ++ laterBoxSource) = .ok m' ∧
      methodNames m = [["open".toList]] ∧
      methodNames m' = [["open".toList, "shut".toList], ["fill".toList]] ∧ m.Grows m' := by
  intro path
  have hends : EndsBlank boxSource := ⟨by decide +kernel, [' '], by decide +kernel, rfl⟩
  have hread : (readAt path boxSource).map methodNames = .ok [["open".toList]] := by decide +kernel
  have hread' : (readAt path (boxSource ++ laterBoxSource)).map methodNames =
      .ok [["open".toList, "shut".toList], ["fill".toList]] := by decide +kernel
  obtain ⟨m, hm, hnames⟩ := exists_of_map_ok hread
  obtain ⟨m', hm', hnames'⟩ := exists_of_map_ok hread'
  exact ⟨hends, m, m', hm, hm', hnames, hnames', readAt_append_grows hends hm hm'⟩

end DocComment
end ApiManual
