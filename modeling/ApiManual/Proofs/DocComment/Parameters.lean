import ApiManual.Proofs.DocComment.Attribution
import Mathlib.Data.List.Nodup
import Mathlib.Data.List.Perm.Basic

/-!
# Parameters of functions

The arguments of a function take their documentations in turn, each the first one of its
name that no argument in front of it has taken.  The documentations that are left over
follow behind all arguments.
-/

namespace ApiManual
namespace DocComment

/-- The parameter of an argument that nothing is documented of. -/
def undocumented (arg : Text) : ParamDoc :=
  { name := arg }

/-! ## One argument -/

/-- An argument takes the first documentation of its name out of the list, or takes
nothing since there is none. -/
theorem mergeParams_cons_cases (arg : Text) (args : List Text) (documented : List ParamDoc) :
    (∃ front p back, documented = front ++ p :: back ∧ (∀ q ∈ front, q.name ≠ arg) ∧
      p.name = arg ∧
      mergeParams (arg :: args) documented = p :: mergeParams args (front ++ back)) ∨
    (∀ q ∈ documented, q.name ≠ arg) ∧
      mergeParams (arg :: args) documented =
        undocumented arg :: mergeParams args documented := by
  cases hfind : documented.find? (·.name = arg) with
  | none =>
      right
      refine ⟨by simpa using hfind, ?_⟩
      rw [mergeParams, hfind]
      rfl
  | some p =>
      left
      obtain ⟨hp, front, back, hdocumented, hfront⟩ := List.find?_eq_some_iff_append.mp hfind
      have hname : p.name = arg := by simpa using hp
      have hothers : ∀ q ∈ front, q.name ≠ arg := by simpa using hfront
      refine ⟨front, p, back, hdocumented, hothers, hname, ?_⟩
      have herase : documented.eraseP (·.name = arg) = front ++ back := by
        rw [hdocumented, List.eraseP_append_right _ (by simpa using hothers),
          List.eraseP_cons_of_pos (by simpa using hname)]
      rw [mergeParams, hfind, ← herase]

/-! ## Who takes what -/

/-- A documentation with its place in the list of them. -/
abbrev PlacedParam := ParamDoc × ℕ

/-- The first documentation of the name at a place that is not taken. -/
def firstFree? (placed : List PlacedParam) (taken : List (Option ℕ)) (name : Text) :
    Option PlacedParam :=
  placed.find? fun p => p.1.name = name ∧ some p.2 ∉ taken

/-- The documentations at places that are not taken. -/
def leftOver (placed : List PlacedParam) (taken : List (Option ℕ)) : List ParamDoc :=
  (placed.filter fun p => some p.2 ∉ taken).map Prod.fst

/-- Each argument takes the first documentation of its name that is still free, if there is
one.  The parameters are those of the arguments, then what is left over. -/
structure Shared (placed : List PlacedParam) (args : List Text) (taken : List (Option ℕ))
    (params : List ParamDoc) : Prop where
  length : taken.length = args.length
  takes : ∀ (i : ℕ) (arg : Text), args[i]? = some arg →
    taken[i]? = some ((firstFree? placed (taken.take i) arg).map Prod.snd)
  shows : ∀ (i : ℕ) (arg : Text), args[i]? = some arg →
    params[i]? =
      some (((firstFree? placed (taken.take i) arg).map Prod.fst).getD (undocumented arg))
  behind : params.drop args.length = leftOver placed taken

theorem filter_ne_place {front back : List PlacedParam} {p : PlacedParam}
    (h : ((front ++ p :: back).map Prod.snd).Nodup) :
    (front ++ p :: back).filter (·.2 ≠ p.2) = front ++ back := by
  rw [List.map_append, List.map_cons, List.nodup_middle, List.nodup_cons, ← List.map_append] at h
  have hne : ∀ q ∈ front ++ back, q.2 ≠ p.2 := by
    intro q hq heq
    exact h.1 (heq ▸ List.mem_map_of_mem hq)
  rw [List.forall_mem_append] at hne
  rw [List.filter_append, List.filter_cons_of_neg (by simp),
    List.filter_eq_self.mpr (by simpa using hne.1), List.filter_eq_self.mpr (by simpa using hne.2)]

theorem firstFree?_filter (placed : List PlacedParam) (place : ℕ) (taken : List (Option ℕ))
    (name : Text) :
    firstFree? (placed.filter (·.2 ≠ place)) taken name =
      firstFree? placed (some place :: taken) name := by
  rw [firstFree?, firstFree?, List.find?_filter]
  congr 1
  funext p
  simp [and_left_comm]

theorem leftOver_filter (placed : List PlacedParam) (place : ℕ) (taken : List (Option ℕ)) :
    leftOver (placed.filter (·.2 ≠ place)) taken = leftOver placed (some place :: taken) := by
  rw [leftOver, leftOver, List.filter_filter]
  congr 2
  funext p
  simp [Bool.and_comm]

theorem firstFree?_none (placed : List PlacedParam) (taken : List (Option ℕ)) (name : Text) :
    firstFree? placed (none :: taken) name = firstFree? placed taken name := by
  simp [firstFree?]

theorem leftOver_none (placed : List PlacedParam) (taken : List (Option ℕ)) :
    leftOver placed (none :: taken) = leftOver placed taken := by
  simp [leftOver]

/-- The first argument takes its documentation, and the others share what it leaves. -/
theorem Shared.cons {placed free : List PlacedParam} {arg : Text} {args : List Text}
    {place : Option ℕ} {taken : List (Option ℕ)} {p : ParamDoc} {params : List ParamDoc}
    (h : Shared free args taken params)
    (hfree : ∀ taken name, firstFree? free taken name = firstFree? placed (place :: taken) name)
    (hleft : ∀ taken, leftOver free taken = leftOver placed (place :: taken))
    (hplace : place = (firstFree? placed [] arg).map Prod.snd)
    (hp : p = ((firstFree? placed [] arg).map Prod.fst).getD (undocumented arg)) :
    Shared placed (arg :: args) (place :: taken) (p :: params) where
  length := by rw [List.length_cons, List.length_cons, h.length]
  takes := by
    intro i name hi
    cases i with
    | zero =>
        cases hi
        rw [List.getElem?_cons_zero, List.take_zero, hplace]
    | succ i =>
        rw [List.getElem?_cons_succ] at hi
        rw [List.getElem?_cons_succ, List.take_succ_cons, ← hfree, h.takes i name hi]
  shows := by
    intro i name hi
    cases i with
    | zero =>
        cases hi
        rw [List.getElem?_cons_zero, List.take_zero, hp]
    | succ i =>
        rw [List.getElem?_cons_succ] at hi
        rw [List.getElem?_cons_succ, List.take_succ_cons, ← hfree, h.shows i name hi]
  behind := by rw [List.length_cons, List.drop_succ_cons, h.behind, hleft]

theorem exists_shared (args : List Text) {placed : List PlacedParam}
    (h : (placed.map Prod.snd).Nodup) :
    ∃ taken, Shared placed args taken (mergeParams args (placed.map Prod.fst)) := by
  induction args generalizing placed with
  | nil => exact ⟨[], rfl, by simp, by simp, by simp [leftOver, mergeParams]⟩
  | cons arg args ih =>
      rcases mergeParams_cons_cases arg args (placed.map Prod.fst) with
        ⟨front', p', back', hplaced, hfront, hname, hmerge⟩ | ⟨hnone, hmerge⟩
      · -- The documentations that are left keep their places in the whole list.
        obtain ⟨front, rest, rfl, rfl, hrest⟩ := List.map_eq_append_iff.mp hplaced
        obtain ⟨p, back, rfl, rfl, rfl⟩ := List.map_eq_cons_iff.mp hrest
        have hfree := filter_ne_place h
        have hfirst : firstFree? (front ++ p :: back) [] arg = some p := by
          refine List.find?_eq_some_iff_append.mpr ⟨by simpa using hname, front, back, rfl, ?_⟩
          simpa using hfront
        obtain ⟨taken, hshared⟩ := ih (h.sublist ((List.filter_sublist).map Prod.snd))
        rw [hmerge, ← List.map_append, ← hfree]
        exact ⟨some p.2 :: taken, hshared.cons (firstFree?_filter _ _) (leftOver_filter _ _)
          (by rw [hfirst]; rfl) (by rw [hfirst]; rfl)⟩
      · have hfirst : firstFree? placed [] arg = none := by
          simpa [firstFree?] using hnone
        obtain ⟨taken, hshared⟩ := ih h
        rw [hmerge]
        exact ⟨none :: taken, hshared.cons (fun _ _ => (firstFree?_none _ _ _).symm)
          (fun _ => (leftOver_none _ _).symm) (by rw [hfirst]; rfl) (by rw [hfirst]; rfl)⟩

/-! ## The documentations of one name -/

/-- The documentations of a name. -/
def named (documented : List ParamDoc) (name : Text) : List ParamDoc :=
  documented.filter (·.name = name)

theorem named_eq_nil {documented : List ParamDoc} {name : Text}
    (h : ∀ p ∈ documented, p.name ≠ name) : named documented name = [] := by
  simpa [named] using h

theorem named_middle {front back : List ParamDoc} {p : ParamDoc}
    (h : ∀ q ∈ front, q.name ≠ p.name) (name : Text) :
    named (front ++ p :: back) name =
      if p.name = name then p :: named (front ++ back) name else named (front ++ back) name := by
  simp only [named, List.filter_append, List.filter_cons, decide_eq_true_eq]
  split
  · rename_i hname
    have hnone : named front name = [] := named_eq_nil (hname ▸ h)
    simp only [named] at hnone
    simp [hnone]
  · rfl

/-- The argument with a number among those of its name takes the documentation with this
number among those of the name. -/
theorem getElem?_mergeParams {args : List Text} {i : ℕ} {arg : Text} (h : args[i]? = some arg)
    (documented : List ParamDoc) :
    (mergeParams args documented)[i]? =
      some (((named documented arg)[(args.take i).count arg]?).getD (undocumented arg)) := by
  induction args generalizing i documented with
  | nil => simp at h
  | cons first args ih =>
      rcases mergeParams_cons_cases first args documented with
        ⟨front, p, back, rfl, hfront, rfl, hmerge⟩ | ⟨hnone, hmerge⟩
      · rw [hmerge, named_middle hfront]
        cases i with
        | zero =>
            cases h
            simp
        | succ i =>
            rw [List.getElem?_cons_succ] at h
            rw [List.getElem?_cons_succ, ih h, List.take_succ_cons, List.count_cons]
            by_cases hname : p.name = arg
            · simp [hname]
            · simp [hname]
      · rw [hmerge]
        cases i with
        | zero =>
            cases h
            simp [named_eq_nil hnone]
        | succ i =>
            rw [List.getElem?_cons_succ] at h
            rw [List.getElem?_cons_succ, ih h, List.take_succ_cons, List.count_cons]
            by_cases hname : first = arg
            · simp [named_eq_nil (hname ▸ hnone)]
            · simp [hname]

theorem exists_perm_mergeParams (args : List Text) (documented : List ParamDoc) :
    ∃ missing : List Text, missing.Sublist args ∧
      (mergeParams args documented).Perm (documented ++ missing.map undocumented) := by
  induction args generalizing documented with
  | nil => exact ⟨[], .slnil, by simp [mergeParams]⟩
  | cons arg args ih =>
      rcases mergeParams_cons_cases arg args documented with
        ⟨front, p, back, rfl, -, -, hmerge⟩ | ⟨-, hmerge⟩
      · obtain ⟨missing, hsublist, hperm⟩ := ih (front ++ back)
        refine ⟨missing, hsublist.cons _, ?_⟩
        rw [hmerge]
        refine (hperm.cons p).trans ?_
        rw [← List.cons_append]
        exact List.perm_middle.symm.append_right _
      · obtain ⟨missing, hsublist, hperm⟩ := ih documented
        refine ⟨arg :: missing, hsublist.cons_cons _, ?_⟩
        rw [hmerge, List.map_cons]
        exact (hperm.cons _).trans List.perm_middle.symm

/-! ## All parameters -/

/-- What the parameters of a function are, given its arguments and what is documented. -/
structure Merges (args : List Text) (documented params : List ParamDoc) : Prop where
  shared : ∃ taken, Shared documented.zipIdx args taken params
  names : (params.take args.length).map (·.name) = args
  counted : ∀ (i : ℕ) (arg : Text), args[i]? = some arg →
    params[i]? =
      some (((named documented arg)[(args.take i).count arg]?).getD (undocumented arg))
  conserved : ∃ missing : List Text, missing.Sublist args ∧
    params.Perm (documented ++ missing.map undocumented)

theorem names_mergeParams (args : List Text) (documented : List ParamDoc) :
    ((mergeParams args documented).take args.length).map (·.name) = args := by
  induction args generalizing documented with
  | nil => simp
  | cons arg args ih =>
      rcases mergeParams_cons_cases arg args documented with
        ⟨front, p, back, -, -, hname, hmerge⟩ | ⟨-, hmerge⟩
      · rw [hmerge, List.length_cons, List.take_succ_cons, List.map_cons, ih, hname]
      · rw [hmerge, List.length_cons, List.take_succ_cons, List.map_cons, ih, undocumented]

theorem params_of_functionDoc {b : DocBlock} {name : Text} {args : List Text} {isLocal : Bool}
    {f : FunctionDoc} (h : functionDoc b name args isLocal = .ok f) :
    ∃ documented, (b.tagsNamed "param".toList).mapM paramDoc = .ok documented ∧
      f.params = mergeParams args documented := by
  unfold functionDoc at h
  obtain ⟨documented, hdocumented, h⟩ := exists_of_bind_ok h
  obtain ⟨returns, -, h⟩ := exists_of_bind_ok h
  cases h
  exact ⟨documented, hdocumented, rfl⟩

/-- Merging loses and doubles nothing, and it is how the parameters of a function are made. -/
theorem merges_functionDoc (args : List Text) (documented : List ParamDoc) :
    Merges args documented (mergeParams args documented) ∧
      ∀ (b : DocBlock) (name : Text) (isLocal : Bool) (f : FunctionDoc),
        (b.tagsNamed "param".toList).mapM paramDoc = .ok documented →
        functionDoc b name args isLocal = .ok f → f.params = mergeParams args documented := by
  refine ⟨⟨?_, names_mergeParams args documented, fun i arg hi => getElem?_mergeParams hi documented,
    exists_perm_mergeParams args documented⟩, ?_⟩
  · have hplaces : (documented.zipIdx.map Prod.snd).Nodup := by
      rw [List.zipIdx_map_snd]
      exact List.nodup_range'
    obtain ⟨taken, hshared⟩ := exists_shared args hplaces
    rw [List.zipIdx_map_fst] at hshared
    exact ⟨taken, hshared⟩
  · intro b name isLocal f hdocumented hf
    obtain ⟨documented', hdocumented', hparams⟩ := params_of_functionDoc hf
    cases hdocumented.symm.trans hdocumented'
    exact hparams

/-- One name documented twice, and a rest that is no argument. -/
def blankBlock : DocBlock where
  firstLine := 1
  tags := [⟨1, "param".toList, "_ number First".toList⟩, ⟨2, "param".toList, "... any Rest".toList⟩,
    ⟨3, "param".toList, "_ string Second".toList⟩]

theorem merges_blankBlock :
    let args := ["_", "size", "_", "_"].map String.toList
    ∃ documented f, (blankBlock.tagsNamed "param".toList).mapM paramDoc = .ok documented ∧
      functionDoc blankBlock "draw".toList args false = .ok f ∧
      f.params.map (fun p => (p.name, p.details)) =
        [("_", "First"), ("size", ""), ("_", "Second"), ("_", ""), ("...", "Rest")].map
          (fun p => (p.1.toList, p.2.toList)) ∧
      Merges args documented f.params := by
  intro args
  have hread : (functionDoc blankBlock "draw".toList args false).map
      (fun f => f.params.map fun p => (p.name, p.details)) =
        .ok ([("_", "First"), ("size", ""), ("_", "Second"), ("_", ""), ("...", "Rest")].map
          (fun p => (p.1.toList, p.2.toList))) := by
    decide +kernel
  obtain ⟨f, hf, hshown⟩ := exists_of_map_ok hread
  obtain ⟨documented, hdocumented, -⟩ := params_of_functionDoc hf
  obtain ⟨hmerges, hparams⟩ := merges_functionDoc args documented
  rw [← hparams blankBlock _ _ f hdocumented hf] at hmerges
  exact ⟨documented, f, hdocumented, hf, hshown, hmerges⟩

/-! ## The receiver -/

theorem self_not_mem_argumentNames (s : Text) : "self".toList ∉ argumentNames s := by
  simp [argumentNames, -String.reduceToList]

/-- A name that no argument has comes from its documentations alone. -/
theorem named_mergeParams {args : List Text} {name : Text} (h : name ∉ args)
    (documented : List ParamDoc) :
    named (mergeParams args documented) name = named documented name := by
  induction args generalizing documented with
  | nil => rfl
  | cons arg args ih =>
      rw [List.mem_cons, not_or] at h
      have hhead : ∀ (p : ParamDoc) params, p.name = arg → named (p :: params) name =
          named params name := by
        intro p params hp
        simp [named, hp, Ne.symm h.1]
      rcases mergeParams_cons_cases arg args documented with
        ⟨front, p, back, rfl, hfront, hname, hmerge⟩ | ⟨-, hmerge⟩
      · rw [hmerge, hhead p _ hname, ih h.2, named_middle (hname ▸ hfront),
          if_neg (hname ▸ Ne.symm h.1)]
      · rw [hmerge, hhead _ _ rfl, ih h.2]

theorem mem_of_mem_functionBlocks {above blocks : List PlacedBlock}
    {site : List PlacedBlock × PlacedBlock} (h : site ∈ functionBlocks above blocks) :
    site.2 ∈ blocks := by
  induction blocks generalizing above with
  | nil => cases h
  | cons b blocks ih =>
      rw [functionBlocks, List.mem_append] at h
      rcases h with hfirst | hrest
      · split at hfirst
        · rw [List.mem_singleton.mp hfirst]
          exact List.mem_cons_self
        · cases hfirst
      · exact List.mem_cons_of_mem _ (ih hrest)

theorem Attributed.exists_documents {blocks : List PlacedBlock} {placed : List PlacedFunction}
    {m : ModuleDoc} (h : Attributed blocks placed m) {f : FunctionDoc}
    (hf : f ∈ m.functions ∨ ∃ c ∈ m.classes, f ∈ c.methods) :
    ∃ b ∈ blocks, ∃ path, b.Documents path f := by
  have hmem : f ∈ m.functions ++ m.classes.flatMap ClassDoc.methods := by
    rw [List.mem_append, List.mem_flatMap]
    exact hf
  obtain ⟨home, hplaced, rfl⟩ := List.mem_map.mp (h.conserved.mem_iff.mp hmem)
  obtain ⟨site, hsite, path, hdocuments, -⟩ := exists_of_forall₂ h.contributions hplaced
  exact ⟨site.2, mem_of_mem_functionBlocks hsite, path, hdocuments⟩

theorem exists_attributed {name : Text} {ls : List PlacedLine} {m : ModuleDoc}
    (h : readBlocks name ls = .ok m) : ∃ placed, Attributed (cutBlocks [] ls) placed m := by
  obtain ⟨r, hrun, hm⟩ := exists_of_bind_ok h
  obtain ⟨placed, hbehind⟩ := Reading.behind_initial.foldlM hrun
  rw [Reading.eq_of_conclude hm]
  exact ⟨placed, hbehind.attributed.of_eq rfl rfl⟩

/-- The parameters named `self` are those that the block above the function documents under
this name.  No argument is one, wherever it stands. -/
theorem readAt_self_params {path source : Text} {m : ModuleDoc} (h : readAt path source = .ok m)
    {f : FunctionDoc} (hf : f ∈ m.functions ∨ ∃ c ∈ m.classes, f ∈ c.methods) :
    ∃ b ∈ cutBlocks [] (placedLines source), (∃ path, b.Documents path f) ∧
      ∃ documented, ((blockOf b.lines).tagsNamed "param".toList).mapM paramDoc = .ok documented ∧
        named f.params "self".toList = named documented "self".toList := by
  rw [readAt, readSource_eq_readBlocks] at h
  obtain ⟨placed, hattributed⟩ := exists_attributed h
  obtain ⟨b, hb, path, hdocuments⟩ := hattributed.exists_documents hf
  refine ⟨b, hb, ⟨path, hdocuments⟩, ?_⟩
  obtain ⟨args, isLocal, hdeclaration, hdoc⟩ := hdocuments
  obtain ⟨documented, hdocumented, hparams⟩ := params_of_functionDoc hdoc
  refine ⟨documented, hdocumented, ?_⟩
  rw [hparams, named_mergeParams (self_not_mem_argumentNames args)]

def paramNames (m : ModuleDoc) : List (List Text) :=
  m.functions.map fun f => f.params.map (·.name)

/-- A function with `self` among its arguments, and one with two documentations of it. -/
def openShutSource : Text :=
  "---\nfunction f(w, self) end\n".toList ++ "---@param self A\n".toList ++
    "---@param self B\nfunction g() end\n".toList

theorem readAt_self_params_openShut :
    let path := "box.lua".toList
    ∃ m, readAt path openShutSource = .ok m ∧
      paramNames m = [["w".toList], ["self".toList, "self".toList]] ∧
      ∀ f ∈ m.functions, ∃ b ∈ cutBlocks [] (placedLines openShutSource),
        (∃ path, b.Documents path f) ∧
          ∃ documented, ((blockOf b.lines).tagsNamed "param".toList).mapM paramDoc =
            .ok documented ∧ named f.params "self".toList = named documented "self".toList := by
  intro path
  have hread : (readAt path openShutSource).map paramNames =
      .ok [["w".toList], ["self".toList, "self".toList]] := by
    decide +kernel
  obtain ⟨m, hm, hnames⟩ := exists_of_map_ok hread
  exact ⟨m, hm, hnames, fun f hf => readAt_self_params hm (.inl hf)⟩

/-- A method with its receiver documented. -/
def receiverSource : Text :=
  "---@param self Box\n".toList ++ "function Box:open(w) end\n".toList

/-- A documentation of `self` makes it a parameter. -/
theorem exists_self_param_receiverSource :
    ∃ m, readAt "box.lua".toList receiverSource = .ok m ∧
      ∃ f ∈ m.functions, ∃ p ∈ f.params, p.name = "self".toList := by
  have hread : (readAt "box.lua".toList receiverSource).map paramNames =
      .ok [["w".toList, "self".toList]] := by
    decide +kernel
  obtain ⟨m, hm, hnames⟩ := exists_of_map_ok hread
  obtain ⟨f, hfunctions, hparams⟩ := List.map_eq_singleton_iff.mp hnames
  have hself : "self".toList ∈ f.params.map (·.name) := by
    rw [hparams]
    exact List.mem_cons_of_mem _ List.mem_cons_self
  obtain ⟨p, hp, hname⟩ := List.mem_map.mp hself
  exact ⟨m, hm, f, by simp [hfunctions], p, hp, hname⟩

end DocComment
end ApiManual
