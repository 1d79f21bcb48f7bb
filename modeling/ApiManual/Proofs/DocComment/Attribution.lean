import ApiManual.Proofs.DocComment.DeclarationForm
import ApiManual.Proofs.DocComment.Growth

/-!
# Attribution of methods

Each block above a function that is no class block documents one function.  Its place is
read off the blocks above it: the function belongs to the last class that has stood for
the owner in its path, and to the module if there is none.
-/

namespace ApiManual
namespace DocComment

/-! ## Owners -/

/-- The text in front of the last separator of a path. -/
def IsOwner (path owner : Text) : Prop :=
  ∃ separator name, isDotOrColon separator ∧ (∀ c ∈ name, isDotOrColon c = false) ∧
    path = owner ++ separator :: name

theorem exists_isOwner {path : Text} {c : Char} (hc : c ∈ path) (hsep : isDotOrColon c) :
    ∃ owner, IsOwner path owner := by
  have hreverse : ∃ c ∈ path.reverse, isDotOrColon c := ⟨c, List.mem_reverse.mpr hc, hsep⟩
  obtain ⟨behind, separator, front, hpath, hseparator, hbehind⟩ := Text.exists_first hreverse
  refine ⟨front.reverse, separator, behind.reverse, hseparator, by simpa using hbehind, ?_⟩
  rw [← List.reverse_reverse path, hpath]
  simp

theorem splitOwner_fst_eq_some_iff {path owner : Text} :
    (splitOwner path).1 = some owner ↔ IsOwner path owner := by
  have hsplit : ∀ owner, IsOwner path owner → (splitOwner path).1 = some owner := by
    rintro owner ⟨separator, name, hseparator, hname, rfl⟩
    rw [splitOwner_separated hname hseparator]
  refine ⟨fun h => ?_, hsplit owner⟩
  by_cases hpath : ∃ c ∈ path, isDotOrColon c
  · obtain ⟨c, hc, hsep⟩ := hpath
    obtain ⟨owner', howner⟩ := exists_isOwner hc hsep
    rw [hsplit owner' howner] at h
    exact Option.some.inj h ▸ howner
  · have hplain : ∀ c ∈ path, isDotOrColon c = false := by simpa using hpath
    rw [splitOwner_plain hplain] at h
    cases h

/-! ## Blocks and the names they bind -/

namespace PlacedBlock

def classTag? (b : PlacedBlock) : Option (Tag × Bool) :=
  (blockOf b.lines).classTag?

def isFunctionBlock (b : PlacedBlock) : Bool :=
  b.classTag?.isNone && b.declaration.isFunction

def Makes (b : PlacedBlock) (c : ClassDoc) : Prop :=
  ∃ tag, b.classTag? = some (tag, c.isEnum) ∧ className tag = .ok c.name

/-- The name stands for the class of this block: it is the name of the class, or the line
below the block assigns to it. -/
def Binds (b : PlacedBlock) (name : Text) : Prop :=
  (∃ c, b.Makes c ∧ c.name = name) ∨ b.declaration = .assignment name

/-- The block documents a function that is declared under this path. -/
def Documents (b : PlacedBlock) (path : Text) (f : FunctionDoc) : Prop :=
  ∃ args isLocal, b.declaration = .ofFunction path args isLocal ∧
    functionDoc (blockOf b.lines) (splitOwner path).2 (argumentNames args) isLocal = .ok f

end PlacedBlock

def classBlocks (blocks : List PlacedBlock) : List PlacedBlock :=
  blocks.filter (·.classTag?.isSome)

/-- The class with this number is the last one of the blocks that the name stands for. -/
def StandsFor (blocks : List PlacedBlock) (name : Text) (number : ℕ) : Prop :=
  ∃ front b back, classBlocks blocks = front ++ b :: back ∧ front.length = number ∧
    b.Binds name ∧ ∀ later ∈ back, ¬ later.Binds name

/-- The blocks give a function under this path the class with a number as its home, or the
module. -/
def IsHome (blocks : List PlacedBlock) (path : Text) : Option ℕ → Prop
  | some number => ∃ owner, IsOwner path owner ∧ StandsFor blocks owner number
  | none => ∀ owner, IsOwner path owner → ∀ b ∈ classBlocks blocks, ¬ b.Binds owner

abbrev PlacedFunction := Option ℕ × FunctionDoc

/-- The function blocks, each with all blocks above it. -/
def functionBlocks (above : List PlacedBlock) :
    List PlacedBlock → List (List PlacedBlock × PlacedBlock)
  | [] => []
  | b :: blocks =>
    (if b.isFunctionBlock then [(above, b)] else []) ++ functionBlocks (above ++ [b]) blocks

/-- The function that a block documents, in the home that the blocks above give it. -/
def Contributes (above : List PlacedBlock) (b : PlacedBlock) (f : PlacedFunction) : Prop :=
  ∃ path, b.Documents path f.2 ∧ IsHome above path f.1

def functionsOf (home : Option ℕ) (placed : List PlacedFunction) : List FunctionDoc :=
  (placed.filter (·.1 = home)).map Prod.snd

/-- The functions of a module are those of its function blocks, each in its home. -/
structure Attributed (blocks : List PlacedBlock) (placed : List PlacedFunction)
    (m : ModuleDoc) : Prop where
  contributions : List.Forall₂ (fun site f => Contributes site.1 site.2 f)
    (functionBlocks [] blocks) placed
  classes : List.Forall₂ PlacedBlock.Makes (classBlocks blocks) m.classes
  functions : m.functions = functionsOf none placed
  methods : ∀ (number : ℕ) (c : ClassDoc), m.classes[number]? = some c →
    c.methods = functionsOf (some number) placed
  inRange : ∀ f ∈ placed, ∀ number, f.1 = some number → number < m.classes.length
  conserved : (m.functions ++ m.classes.flatMap ClassDoc.methods).Perm (placed.map Prod.snd)

theorem functionBlocks_concat (above blocks : List PlacedBlock) (b : PlacedBlock) :
    functionBlocks above (blocks ++ [b]) = functionBlocks above blocks ++
      if b.isFunctionBlock then [(above ++ blocks, b)] else [] := by
  induction blocks generalizing above with
  | nil => simp [functionBlocks]
  | cons first blocks ih => simp [functionBlocks, ih]

theorem functionsOf_concat (home home' : Option ℕ) (placed : List PlacedFunction)
    (f : FunctionDoc) :
    functionsOf home (placed ++ [(home', f)]) =
      functionsOf home placed ++ if home' = home then [f] else [] := by
  by_cases h : home' = home
  · simp [functionsOf, h]
  · simp [functionsOf, h]

theorem classBlocks_concat_some {b : PlacedBlock} {found : Tag × Bool}
    (h : b.classTag? = some found) (blocks : List PlacedBlock) :
    classBlocks (blocks ++ [b]) = classBlocks blocks ++ [b] := by
  simp [classBlocks, h]

theorem classBlocks_concat_none {b : PlacedBlock} (h : b.classTag? = none)
    (blocks : List PlacedBlock) : classBlocks (blocks ++ [b]) = classBlocks blocks := by
  simp [classBlocks, h]

theorem Declaration.target?_eq_some_iff {d : Declaration} {name : Text} :
    d.target? = some name ↔ d = .assignment name := by
  cases d <;> simp [Declaration.target?]

theorem PlacedBlock.Makes.binds_iff {b : PlacedBlock} {c : ClassDoc} (h : b.Makes c)
    {name : Text} : b.Binds name ↔ name = c.name ∨ b.declaration.target? = some name := by
  rw [Declaration.target?_eq_some_iff]
  refine or_congr_left ⟨?_, fun hname => ⟨c, h, hname.symm⟩⟩
  rintro ⟨c', ⟨tag', htag', hname'⟩, rfl⟩
  obtain ⟨tag, htag, hname⟩ := h
  have heq : tag' = tag := congrArg Prod.fst (Option.some.inj (htag'.symm.trans htag))
  rw [heq] at hname'
  exact Except.ok.inj (hname'.symm.trans hname)

theorem exists_path {b : PlacedBlock} {owner : Option Text} {name : Text} {args : List Text}
    {isLocal : Bool} (h : b.declaration = .function owner name args isLocal) :
    ∃ path text, b.declaration = .ofFunction path text isLocal ∧
      (splitOwner path).1 = owner ∧ (splitOwner path).2 = name ∧ argumentNames text = args := by
  have hline : ∃ line, Declaration.ofLine line = .function owner name args isLocal := by
    simp only [PlacedBlock.declaration] at h
    cases hnext : b.next? with
    | none => simp [hnext] at h
    | some next =>
        cases next with
        | code line => exact ⟨line, by simpa [hnext, SourceLine.declaration] using h⟩
        | separator | tag _ _ | text _ | gap => simp [hnext, SourceLine.declaration] at h
  obtain ⟨line, hline⟩ := hline
  rw [Declaration.ofLine] at hline
  split at hline
  · rename_i path text isLocal' _
    rw [h, ← hline]
    cases hline
    exact ⟨path, text, rfl, rfl, rfl, rfl⟩
  · split at hline
    · cases hline
    · cases hline

/-! ## One block -/

theorem flatMap_methods_modify {classes : List ClassDoc} {number : ℕ}
    (h : number < classes.length) (f : FunctionDoc) :
    ((classes.modify number fun c => { c with methods := c.methods ++ [f] }).flatMap
      ClassDoc.methods).Perm (classes.flatMap ClassDoc.methods ++ [f]) := by
  obtain ⟨front, c, back, hclasses, -, hmodify⟩ :=
    List.exists_of_modify (fun c : ClassDoc => { c with methods := c.methods ++ [f] }) h
  rw [hmodify, hclasses]
  simp only [List.flatMap_append, List.flatMap_cons, List.append_assoc]
  exact (List.perm_append_comm.append_left _).append_left _

namespace Attributed

variable {blocks : List PlacedBlock} {placed : List PlacedFunction} {m m' : ModuleDoc}

theorem nil (name : Text) : Attributed [] [] { name } where
  contributions := .nil
  classes := .nil
  functions := rfl
  methods := by simp
  inRange := by simp
  conserved := .refl _

theorem of_eq (h : Attributed blocks placed m) (hfunctions : m'.functions = m.functions)
    (hclasses : m'.classes = m.classes) : Attributed blocks placed m' where
  contributions := h.contributions
  classes := hclasses ▸ h.classes
  functions := hfunctions ▸ h.functions
  methods := hclasses ▸ h.methods
  inRange := hclasses ▸ h.inRange
  conserved := by
    rw [hfunctions, hclasses]
    exact h.conserved

theorem functionsOf_new (h : Attributed blocks placed m) :
    functionsOf (some m.classes.length) placed = [] := by
  have hnone : placed.filter (·.1 = some m.classes.length) = [] := by
    refine List.filter_eq_nil_iff.mpr fun f hf => ?_
    simpa using fun hhome => lt_irrefl _ (h.inRange f hf m.classes.length hhome)
  rw [functionsOf, hnone, List.map_nil]

theorem addClass (h : Attributed blocks placed m) {b : PlacedBlock} {c : ClassDoc}
    (hb : b.Makes c) (hmethods : c.methods = []) (hclasses : m'.classes = m.classes ++ [c])
    (hfunctions : m'.functions = m.functions) : Attributed (blocks ++ [b]) placed m' := by
  obtain ⟨tag, htag, hname⟩ := hb
  have hsites : functionBlocks [] (blocks ++ [b]) = functionBlocks [] blocks := by
    simp [functionBlocks_concat, PlacedBlock.isFunctionBlock, htag]
  constructor
  · rw [hsites]
    exact h.contributions
  · rw [classBlocks_concat_some htag, hclasses]
    exact forall₂_concat h.classes ⟨tag, htag, hname⟩
  · rw [hfunctions, h.functions]
  · intro number d hd
    rw [hclasses, List.getElem?_append] at hd
    split at hd
    · exact h.methods number d hd
    · rename_i hnumber
      -- the only new number is that of the new class
      obtain ⟨hlast, hd⟩ := List.getElem?_eq_some_iff.mp hd
      have hlength : number = m.classes.length := by
        rw [List.length_singleton] at hlast
        omega
      rw [List.getElem_singleton] at hd
      rw [hlength, h.functionsOf_new, ← hd, hmethods]
  · intro f hf number hhome
    rw [hclasses, List.length_append]
    exact Nat.lt_add_right _ (h.inRange f hf number hhome)
  · rw [hfunctions, hclasses, List.flatMap_append, List.flatMap_singleton, hmethods,
      List.append_nil]
    exact h.conserved

theorem addNothing (h : Attributed blocks placed m) {b : PlacedBlock} (htag : b.classTag? = none)
    (hfunction : b.declaration.isFunction = false) : Attributed (blocks ++ [b]) placed m where
  contributions := by
    have hsites : functionBlocks [] (blocks ++ [b]) = functionBlocks [] blocks := by
      simp [functionBlocks_concat, PlacedBlock.isFunctionBlock, hfunction]
    rw [hsites]
    exact h.contributions
  classes := by
    rw [classBlocks_concat_none htag]
    exact h.classes
  functions := h.functions
  methods := h.methods
  inRange := h.inRange
  conserved := h.conserved

theorem contributions_concat (h : Attributed blocks placed m) {b : PlacedBlock}
    (htag : b.classTag? = none) (hfunction : b.declaration.isFunction) {f : PlacedFunction}
    (hf : Contributes blocks b f) :
    List.Forall₂ (fun site f => Contributes site.1 site.2 f) (functionBlocks [] (blocks ++ [b]))
      (placed ++ [f]) := by
  rw [functionBlocks_concat, if_pos (by simp [PlacedBlock.isFunctionBlock, htag, hfunction])]
  exact forall₂_concat h.contributions hf

theorem addFunction (h : Attributed blocks placed m) {b : PlacedBlock} (htag : b.classTag? = none)
    (hfunction : b.declaration.isFunction) {f : FunctionDoc} (hf : Contributes blocks b (none, f))
    (hclasses : m'.classes = m.classes) (hfunctions : m'.functions = m.functions ++ [f]) :
    Attributed (blocks ++ [b]) (placed ++ [(none, f)]) m' where
  contributions := h.contributions_concat htag hfunction hf
  classes := by
    rw [classBlocks_concat_none htag, hclasses]
    exact h.classes
  functions := by
    rw [hfunctions, h.functions, functionsOf_concat, if_pos rfl]
  methods := by
    intro number c hc
    rw [hclasses] at hc
    rw [functionsOf_concat, if_neg (by simp), List.append_nil]
    exact h.methods number c hc
  inRange := by
    rw [hclasses]
    simpa [or_imp, forall_and] using h.inRange
  conserved := by
    rw [hfunctions, hclasses, List.append_assoc, List.map_append]
    refine List.Perm.trans ?_ (h.conserved.append_right [f])
    rw [List.append_assoc]
    exact List.perm_append_comm.append_left _

theorem addMethod (h : Attributed blocks placed m) {b : PlacedBlock} (htag : b.classTag? = none)
    (hfunction : b.declaration.isFunction) {number : ℕ} {f : FunctionDoc}
    (hf : Contributes blocks b (some number, f)) (hnumber : number < m.classes.length)
    (hclasses : m'.classes =
      m.classes.modify number fun c => { c with methods := c.methods ++ [f] })
    (hfunctions : m'.functions = m.functions) :
    Attributed (blocks ++ [b]) (placed ++ [(some number, f)]) m' where
  contributions := h.contributions_concat htag hfunction hf
  classes := by
    rw [classBlocks_concat_none htag, hclasses]
    refine forall₂_modify ?_ h.classes number
    exact fun _ _ hmakes => hmakes
  functions := by
    rw [hfunctions, h.functions, functionsOf_concat, if_neg (by simp), List.append_nil]
  methods := by
    intro i d hd
    rw [hclasses, List.getElem?_modify] at hd
    obtain ⟨c, hc, rfl⟩ := Option.map_eq_some_iff.mp hd
    rw [functionsOf_concat, ← h.methods i c hc]
    by_cases hi : number = i
    · simp [hi]
    · simp [hi]
  inRange := by
    rw [hclasses, List.length_modify]
    simpa [or_imp, forall_and, hnumber] using h.inRange
  conserved := by
    rw [hfunctions, hclasses, List.map_append]
    refine ((flatMap_methods_modify hnumber f).append_left _).trans ?_
    rw [← List.append_assoc]
    exact h.conserved.append_right [f]

end Attributed

/-! ## The names that classes stand for -/

theorem StandsFor.lt_length {blocks : List PlacedBlock} {name : Text} {number : ℕ}
    (h : StandsFor blocks name number) : number < (classBlocks blocks).length := by
  obtain ⟨front, b, back, hblocks, rfl, -⟩ := h
  simp [hblocks]

theorem StandsFor.concat {blocks : List PlacedBlock} {name : Text} {number : ℕ}
    (h : StandsFor blocks name number) {b : PlacedBlock} (hb : ¬ b.Binds name) :
    StandsFor (blocks ++ [b]) name number := by
  obtain ⟨front, bound, back, hblocks, hnumber, hbound, hback⟩ := h
  cases htag : b.classTag? with
  | none => exact ⟨front, bound, back, by rw [classBlocks_concat_none htag, hblocks], hnumber,
      hbound, hback⟩
  | some found =>
      refine ⟨front, bound, back ++ [b], ?_, hnumber, hbound, ?_⟩
      · rw [classBlocks_concat_some htag, hblocks]
        simp
      · simpa [or_imp, forall_and, hb] using hback

namespace Reading

/-- Every name that is bound stands for a class that is there. -/
def InRange (r : Reading) : Prop :=
  ∀ name number, List.lookup name r.owners = some number → number < r.doc.classes.length

/-- What is known behind some blocks: whose the functions are, and which class each name
stands for. -/
structure Behind (blocks : List PlacedBlock) (placed : List PlacedFunction)
    (r : Reading) : Prop where
  attributed : Attributed blocks placed r.doc
  bound : ∀ name number, List.lookup name r.owners = some number → StandsFor blocks name number
  unbound : ∀ name, List.lookup name r.owners = none → ∀ b ∈ classBlocks blocks, ¬ b.Binds name

variable {blocks : List PlacedBlock} {placed : List PlacedFunction} {r r' : Reading}

theorem Behind.inRange (h : Behind blocks placed r) : r.InRange := by
  intro name number hname
  rw [← h.attributed.classes.length_eq]
  exact (h.bound name number hname).lt_length

theorem Behind.isHome (h : Behind blocks placed r) (path : Text) :
    IsHome blocks path ((splitOwner path).1.bind (List.lookup · r.owners)) := by
  cases howner : (splitOwner path).1 with
  | none =>
      intro owner hpath
      rw [splitOwner_fst_eq_some_iff.mpr hpath] at howner
      cases howner
  | some owner =>
      have hpath := splitOwner_fst_eq_some_iff.mp howner
      rw [Option.bind_some]
      cases hfound : List.lookup owner r.owners with
      | none =>
          intro owner' hpath'
          rw [splitOwner_fst_eq_some_iff.mpr hpath'] at howner
          cases howner
          exact h.unbound owner hfound
      | some number => exact ⟨owner, hpath, h.bound owner number hfound⟩

theorem Behind.contributes (h : Behind blocks placed r) {b : PlacedBlock} {owner : Option Text}
    {name : Text} {args : List Text} {isLocal : Bool} {f : FunctionDoc}
    (hd : b.declaration = .function owner name args isLocal)
    (hf : functionDoc (blockOf b.lines) name args isLocal = .ok f) :
    Contributes blocks b (owner.bind (List.lookup · r.owners), f) := by
  obtain ⟨path, text, hpath, rfl, rfl, rfl⟩ := exists_path hd
  exact ⟨path, ⟨text, isLocal, hpath, hf⟩, h.isHome path⟩

theorem Behind.concat_none (h : Behind blocks placed r) {b : PlacedBlock}
    (htag : b.classTag? = none) {added : List PlacedFunction}
    (hdoc : Attributed (blocks ++ [b]) (placed ++ added) r'.doc) (howners : r'.owners = r.owners) :
    Behind (blocks ++ [b]) (placed ++ added) r' where
  attributed := hdoc
  bound := by
    intro name number hname
    rw [howners] at hname
    rw [StandsFor, classBlocks_concat_none htag]
    exact h.bound name number hname
  unbound := by
    rw [howners, classBlocks_concat_none htag]
    exact h.unbound

theorem Behind.concat_class (h : Behind blocks placed r) {b : PlacedBlock} {c : ClassDoc}
    (hb : b.Makes c) (hdoc : Attributed (blocks ++ [b]) placed r'.doc)
    (howners : ∀ name, List.lookup name r'.owners =
      if name = c.name ∨ b.declaration.target? = some name then some r.doc.classes.length
      else List.lookup name r.owners) : Behind (blocks ++ [b]) placed r' := by
  have ⟨tag, htag, _⟩ := hb
  have hblocks := classBlocks_concat_some htag blocks
  refine ⟨hdoc, ?_, ?_⟩
  · intro name number hname
    rw [howners] at hname
    split at hname
    · rename_i hbinds
      rw [← h.attributed.classes.length_eq] at hname
      exact ⟨classBlocks blocks, b, [], hblocks, Option.some.inj hname, hb.binds_iff.mpr hbinds,
        by simp⟩
    · rename_i hbinds
      exact (h.bound name number hname).concat (mt hb.binds_iff.mp hbinds)
  · intro name hname
    rw [howners] at hname
    split at hname
    · cases hname
    · rename_i hbinds
      rw [hblocks]
      simpa [or_imp, forall_and, mt hb.binds_iff.mp hbinds] using h.unbound name hname

/-- A block adds at most one function, in the home that the blocks above it give. -/
theorem Behind.attach (h : Behind blocks placed r) {b : PlacedBlock}
    (hattach : b.attach r = .ok r') : ∃ added, Behind (blocks ++ [b]) (placed ++ added) r' := by
  cases attaches_of_attach hattach with
  | addsClass tag c htag hname hmethods hclasses hfunctions howners =>
      have hb : b.Makes c := ⟨tag, htag, hname⟩
      have hdoc := h.attributed.addClass hb hmethods hclasses hfunctions
      refine ⟨[], ?_⟩
      rw [List.append_nil]
      exact h.concat_class hb hdoc howners
  | addsMethod owner name args isLocal f number htag hd hf howner hclasses hfunctions howners =>
      have hfunction : b.declaration.isFunction := by rw [hd]; rfl
      have hcontributes : Contributes blocks b (some number, f) := howner ▸ h.contributes hd hf
      obtain ⟨name, -, hlookup⟩ := Option.bind_eq_some_iff.mp howner
      have hnumber := h.inRange _ _ hlookup
      have hdoc := h.attributed.addMethod htag hfunction hcontributes hnumber hclasses hfunctions
      exact ⟨_, h.concat_none htag hdoc howners⟩
  | addsFunction owner name args isLocal f htag hd hf howner hclasses hfunctions howners =>
      have hfunction : b.declaration.isFunction := by rw [hd]; rfl
      have hcontributes : Contributes blocks b (none, f) := howner ▸ h.contributes hd hf
      have hdoc := h.attributed.addFunction htag hfunction hcontributes hclasses hfunctions
      exact ⟨_, h.concat_none htag hdoc howners⟩
  | addsNothing htag hd hclasses hfunctions howners =>
      have hdoc := (h.attributed.addNothing htag hd).of_eq hfunctions hclasses
      refine ⟨[], h.concat_none htag ?_ howners⟩
      rw [List.append_nil]
      exact hdoc

theorem behind_initial : Behind [] [] {} where
  attributed := .nil []
  bound := by simp
  unbound := by simp [classBlocks]

theorem Behind.foldlM {later : List PlacedBlock} (h : Behind blocks placed r)
    (hrun : later.foldlM PlacedBlock.attach r = .ok r') :
    ∃ added, Behind (blocks ++ later) (placed ++ added) r' := by
  -- on the blocks still to come; those already attached are part of the invariant
  induction later generalizing blocks placed r with
  | nil =>
      cases hrun
      refine ⟨[], ?_⟩
      rw [List.append_nil, List.append_nil]
      exact h
  | cons b later ih =>
      rw [List.foldlM_cons] at hrun
      obtain ⟨s, hattach, hrest⟩ := exists_of_bind_ok hrun
      obtain ⟨added, hs⟩ := h.attach hattach
      obtain ⟨more, hr'⟩ := ih hs hrest
      refine ⟨added ++ more, ?_⟩
      rw [List.append_assoc, List.append_assoc] at hr'
      exact hr'

/-! ## Numbers of classes -/

theorem inRange_attach (hr : r.InRange) {b : DocBlock} {d : Declaration}
    (h : r.attach b d = .ok r') : r'.InRange := by
  intro name number hname
  cases attaches_of_attach h with
  | addsClass tag c htag hc hmethods hclasses hfunctions howners =>
      rw [howners] at hname
      rw [hclasses, List.length_append]
      split at hname
      · cases hname
        exact Nat.lt_succ_self _
      · exact Nat.lt_add_right _ (hr name number hname)
  | addsMethod owner _ _ _ f _ _ _ _ _ hclasses _ howners =>
      rw [howners] at hname
      rw [hclasses, List.length_modify]
      exact hr name number hname
  | addsFunction _ _ _ _ _ _ _ _ _ hclasses _ howners =>
      rw [howners] at hname
      rw [hclasses]
      exact hr name number hname
  | addsNothing _ _ hclasses _ howners =>
      rw [howners] at hname
      rw [hclasses]
      exact hr name number hname

theorem keptByBlocks_inRange : KeptByBlocks InRange where
  place := fun _ _ _ _ hr => hr
  attach := fun hr h => inRange_attach hr h

end Reading

/-! ## Sources -/

/-- In a source that is read each function block makes one function of the module, in the
place that the class blocks above it give, and there are no other functions.  No class is
ever looked up that is not there. -/
theorem readAt_attributed {path source : Text} {m : ModuleDoc} (h : readAt path source = .ok m) :
    (∃ placed, Attributed (cutBlocks [] (placedLines source)) placed m) ∧
      ∀ front back, numberedLines source = front ++ back →
        ∃ r, ({} : Reading).run front = .ok r ∧ r.InRange := by
  constructor
  · rw [readAt, readSource_eq_readBlocks, readBlocks] at h
    obtain ⟨r, hrun, hm⟩ := exists_of_bind_ok h
    obtain ⟨placed, hbehind⟩ := Reading.behind_initial.foldlM hrun
    rw [Reading.eq_of_conclude hm]
    exact ⟨placed, hbehind.attributed.of_eq rfl rfl⟩
  · intro front back hlines
    rw [readAt, readSource, hlines, Reading.run, List.foldlM_append, bind_assoc] at h
    obtain ⟨r, hrun, -⟩ := exists_of_bind_ok h
    exact ⟨r, hrun, Reading.keptByBlocks_inRange.run (by simp [Reading.InRange]) hrun⟩

/-- Two classes of one name under two variables, with methods in turn. -/
def twoBoxesSource : Text :=
  ("---@class Box\nlocal B = {}\n---\nfunction B.open() end\n---@class Box\nlocal C = {}\n" ++
    "---\nfunction Box:shut() end\n---\nfunction B.fill() end\n---\nfunction free() end\n").toList

theorem readAt_attributed_twoBoxes :
    let path := "box.lua".toList
    ∃ m, readAt path twoBoxesSource = .ok m ∧ m.functions.map (·.name) = ["free".toList] ∧
      methodNames m = [["open".toList, "fill".toList], ["shut".toList]] ∧
      (∃ placed, Attributed (cutBlocks [] (placedLines twoBoxesSource)) placed m) ∧
      ∀ front back, numberedLines twoBoxesSource = front ++ back →
        ∃ r, ({} : Reading).run front = .ok r ∧ r.InRange := by
  intro path
  have hread : (readAt path twoBoxesSource).map
      (fun m => (m.functions.map (·.name), methodNames m)) =
        .ok (["free".toList], [["open".toList, "fill".toList], ["shut".toList]]) := by
    decide +kernel
  obtain ⟨m, hm, hnames⟩ := exists_of_map_ok hread
  obtain ⟨hfunctions, hmethods⟩ := Prod.mk.inj hnames
  exact ⟨m, hm, hfunctions, hmethods, readAt_attributed hm⟩

end DocComment
end ApiManual
