import ApiManual.Proofs.Glob.Walk

/-!
# What a walk lists

In a well-formed tree the names of an escaped root lead a walk to the directory that the
root leads to.  From there it comes to everything below, to each place once, and the path
it writes leads to the place.
-/

namespace ApiManual
namespace Glob

open ApiManual.Path ApiManual.FileTree

/-! ## Paths below a path -/

/-- The components that a walk puts in front of what stands below a path. -/
def seen (path : Text) : List Component :=
  if isCurrent path then [] else components path

theorem byteLength_join_le (base path : Text) :
    Text.byteLength (join base path) ≤ Text.byteLength base + 1 + Text.byteLength path := by
  have hslash : Text.byteLength ('/' :: path) = 1 + Text.byteLength path := rfl
  unfold join
  split
  · omega
  · split
    · rw [Text.byteLength_append]
      omega
    · rw [Text.byteLength_append, hslash]
      omega

theorem byteLength_childPath_le (path name : Text) :
    Text.byteLength (childPath path name) ≤ Text.byteLength path + 1 + Text.byteLength name := by
  unfold childPath
  split
  · omega
  · exact byteLength_join_le path name

theorem isPath_childPath {path root name : Text} (h : Text.byteLength path ≤ Text.byteLength root)
    (hshort : isPath (root ++ '/' :: name)) : isPath (childPath path name) := by
  apply isPath_of_le _ hshort
  have hle := byteLength_childPath_le path name
  have hslash : Text.byteLength ('/' :: name) = 1 + Text.byteLength name := rfl
  rw [Text.byteLength_append, hslash]
  omega

theorem components_childPath {path : Text} (hpath : path ≠ []) {names : Location}
    (hnames : ∀ name ∈ names, IsName name) :
    components (childPath path (ofNames names)) = seen path ++ names.map .normal := by
  unfold childPath seen
  split
  · exact components_ofNames hnames
  · rw [components_join hpath (isAbsolute_ofNames hnames), inner_ofNames hnames]

section
variable {t : FileTree} {place : Location}

theorem eq_of_isCurrent {path : Text} (hcurrent : isCurrent path)
    (h : t.locate? path = some place) :
    place = t.workingDirectory := by
  have hcomponents : components path = [.current] := by simpa [isCurrent] using hcurrent
  have hrelative : isAbsolute path = false := by
    by_contra habsolute
    rw [components_eq, if_pos (by simpa using habsolute)] at hcomponents
    cases hcomponents
  have hinner : inner path = [] := by
    rw [← steps_of_relative hrelative, steps, hcomponents]
    rfl
  obtain ⟨-, -, hfold⟩ := locate?_eq_some_iff.mp h
  rw [startOf, hrelative] at hfold
  exact eq_of_foldlM_of_none (List.filterMap_eq_nil_iff.mp hinner) hfold

/-- The path that a walk writes for what is below a directory leads there. -/
theorem locate?_childPath (ht : t.WellFormed) {path : Text} (hpath : t.Reaches path place)
    {names : Location} (hne : names ≠ []) (hsome : (t.node? (place ++ names)).isSome)
    (hshort : isPath (childPath path (ofNames names))) :
    t.locate? (childPath path (ofNames names)) = some (place ++ names) := by
  have hnames : ∀ name ∈ names, IsName name :=
    fun name hname => ht.isName hsome name (List.mem_append_right _ hname)
  unfold childPath at hshort ⊢
  split at hshort
  · rename_i hcurrent
    have hsplit := splitOn_ofNames hne fun name hname => (hnames name hname).noSlash
    rw [if_pos hcurrent, locate?_eq_some_iff]
    refine ⟨?_, hshort, ?_⟩
    · intro hempty
      have hcomponents := components_ofNames hnames
      rw [hempty] at hcomponents
      exact hne (List.map_eq_nil_iff.mp hcomponents.symm)
    · rw [hsplit, startOf, isAbsolute_ofNames hnames, ← eq_of_isCurrent hcurrent hpath.leads]
      exact ht.foldlM_enter? hsome
  · rename_i hcurrent
    rw [if_neg hcurrent]
    exact ht.locate?_join_ofNames hpath.leads hne hsome hshort

/-! ## Everything below a directory -/

/-- From a directory a walk comes to each place below it once. -/
theorem expand?_below {path : Text} (hpath : t.Reaches path place) (p : Pattern)
    (hshort : ∀ names ∈ t.below place, isPath (childPath path (ofNames names))) :
    expand? t false [.anyDepth, p] ⟨path, true⟩ =
      some (((t.below place).filter fun names => p.accepts (names.getLastD [])).map
        fun names => childPath path (ofNames names)) := by
  have hbelow : below? t ⟨path, true⟩ = some ((t.below place).map fun names =>
      (names.getLastD [], entry t path place names)) := by
    simp only [below?, descendants?, hpath.leads, Option.bind_eq_bind, Option.bind_some, if_true]
    refine if_pos ?_
    rw [List.all_map, List.all_eq_true]
    intro names hnames
    exact Bool.or_eq_true_iff.mpr (.inr (hshort names hnames))
  have hpaths : ∀ names, expand? t false [] (entry t path place names) =
      some [childPath path (ofNames names)] := fun _ => rfl
  rw [expand?, hbelow]
  · simp only [Option.bind_eq_bind, Option.bind_some, List.filter_map, List.mapM_map,
      Function.comp_def, hpaths]
    exact bind_mapM_singleton _ _

/-! ## Following a root -/

theorem expand?_of_next? {directoriesOnly : Bool} {name : Text} {ps : List Pattern}
    {spot next : Spot}
    (h : next? t (.ofName name) spot = some [next]) :
    expand? t directoriesOnly (.ofName name :: ps) spot = expand? t directoriesOnly ps next := by
  rw [expand?_ofName, h]
  cases hnext : expand? t directoriesOnly ps next <;> simp [hnext]

theorem specialNames_ofName {name : Text} (h : name.any isSpecialChar) :
    specialNames (.ofName name) = [] := by
  unfold specialNames
  split
  · rw [List.filter_eq_nil_iff]
    intro special hspecial haccepts
    rw [Pattern.ofName_accepts, decide_eq_true_eq] at haccepts
    subst haccepts
    simp only [List.mem_cons, List.not_mem_nil, or_false] at hspecial
    rcases hspecial with rfl | rfl
    · cases h
    · cases h
  · rfl

/-- A name that leads from one directory to another does so on a walk. -/
theorem next?_ofName (ht : t.WellFormed) {path name : Text} {next : Location}
    (hpath : t.Reaches path place) (hname : '/' ∉ name) (henter : t.enter? place name = some next)
    (hnext : t.Reaches (childPath path name) next) :
    next? t (.ofName name) ⟨path, true⟩ = some [⟨childPath path name, true⟩] := by
  unfold next?
  rw [Pattern.literal?_ofName]
  by_cases hspecial : name.any isSpecialChar
  · have hcounts : IsName name := by
      refine isName_iff.mpr ⟨?_, ?_, ?_, hname⟩ <;>
      · rintro rfl
        cases hspecial
    rw [enter?_name hpath.isDirectory hcounts] at henter
    split at henter
    · rename_i hthere
      cases henter
      have honce : (t.children place).filter (fun n => decide (n = name)) = [name] := by
        rw [List.filter_eq,
          List.count_eq_one_of_mem ht.nodup_children (ht.mem_children_iff.mpr hthere)]
        rfl
      have hentry : entry t path place [name] = ⟨childPath path name, true⟩ :=
        congrArg₂ Spot.mk (path_entry_name (t := t) path place name) hnext.isDirectory
      simp only [hspecial, if_true, entries?, hpath.leads, Option.bind_eq_bind, Option.bind_some,
        Option.pure_def, specialNames_ofName hspecial, List.map_nil, List.nil_append,
        List.filter_map, Function.comp_def, Pattern.ofName_accepts, honce, List.map_singleton,
        hentry]
    · cases henter
  · have hthere : t.contains (childPath path name) := by
      rw [FileTree.contains, FileTree.get?, hnext.leads, Option.bind_some,
        isDirectoryAt_iff.mp hnext.isDirectory]
      rfl
    rw [if_neg hspecial]
    simp only [hthere, ite_self, if_true, Spot.at, hnext.isDirectory_path]

/-- A step from a path that is not the current directory leads on as the tree does. -/
theorem reaches_join {path name : Text} {next : Location} (hpath : t.Reaches path place)
    (hname : '/' ∉ name) (henter : t.enter? place name = some next) (hnext : t.isDirectoryAt next)
    (hshort : isPath (join path name)) : t.Reaches (join path name) next := by
  refine ⟨?_, hnext⟩
  rw [locate?_join hpath.leads (isAbsolute_of_noSlash hname) hshort, splitOn_of_noSlash hname,
    List.foldlM_cons, henter]
  rfl

theorem not_isCurrent_join {path : Text} (hpath : path ≠ []) (hcurrent : ¬ isCurrent path)
    {name : Text} (hname : '/' ∉ name) : ¬ isCurrent (join path name) := by
  simp only [isCurrent, decide_eq_true_eq] at hcurrent ⊢
  rw [components_join hpath (isAbsolute_of_noSlash hname)]
  intro heq
  rcases List.append_eq_cons_iff.mp heq with ⟨-, hinner⟩ | ⟨rest, hrest, hnil⟩
  · have hmem : Component.current ∈ inner name := by simp [hinner]
    exact current_not_mem_filterMap _ hmem
  · rw [(List.append_eq_nil_iff.mp hnil.symm).1] at hrest
    exact hcurrent hrest

/-- A walk follows names from one path to another, which is at most `bound` bytes long. -/
structure Follows (t : FileTree) (ps : List Pattern) (names : List Text) (start path : Text)
    (place : Location) (bound : ℕ) : Prop where
  expand : expand? t false (names.map .ofName ++ ps) ⟨start, true⟩ = expand? t false ps ⟨path, true⟩
  reaches : t.Reaches path place
  seen : seen path = seen start ++ names.filterMap pieceComponent?
  short : Text.byteLength path ≤ bound

section
variable {ps : List Pattern} {names : List Text} {name start next path : Text} {q : Location}
variable {bound : ℕ}

theorem Follows.cons (hnext : next? t (.ofName name) ⟨start, true⟩ = some [⟨next, true⟩])
    (hseen : Glob.seen next = Glob.seen start ++ (pieceComponent? name).toList)
    (h : Follows t ps names next path place bound) :
    Follows t ps (name :: names) start path place bound where
  expand := by
    rw [List.map_cons, List.cons_append, expand?_of_next? hnext]
    exact h.expand
  reaches := h.reaches
  seen := by
    rw [h.seen, hseen, List.append_assoc, List.filterMap_cons]
    cases pieceComponent? name <;> rfl
  short := h.short

theorem exists_follows (ht : t.WellFormed) (hnames : ∀ name ∈ names, '/' ∉ name)
    (hstart : t.Reaches start q) (hcurrent : ¬ isCurrent start)
    (hfold : names.foldlM t.enter? q = some place) (hplace : t.isDirectoryAt place)
    (hshort : isPath (start ++ names.flatMap ('/' :: ·))) :
    ∃ path, Follows t ps names start path place
      (Text.byteLength (start ++ names.flatMap ('/' :: ·))) := by
  induction names generalizing start q with
  | nil =>
      have hq : q = place := Option.some.inj hfold
      subst hq
      exact ⟨start, rfl, hstart, by simp, by simp⟩
  | cons name names ih =>
      rw [List.forall_mem_cons] at hnames
      rw [List.foldlM_cons] at hfold
      obtain ⟨r, henter, hrest⟩ := Option.bind_eq_some_iff.mp hfold
      have hdir := isDirectoryAt_of_foldlM hrest hplace
      have hflat : start ++ (name :: names).flatMap ('/' :: ·) =
          start ++ '/' :: name ++ names.flatMap ('/' :: ·) := by simp
      have hle : Text.byteLength (join start name ++ names.flatMap ('/' :: ·)) ≤
          Text.byteLength (start ++ (name :: names).flatMap ('/' :: ·)) := by
        have hjoin := byteLength_join_le start name
        have hslash : Text.byteLength ('/' :: name) = 1 + Text.byteLength name := rfl
        rw [hflat]
        simp only [Text.byteLength_append, hslash]
        omega
      have hshort' : isPath (join start name ++ names.flatMap ('/' :: ·)) :=
        isPath_of_le hle hshort
      have hnext : t.Reaches (join start name) r :=
        reaches_join hstart hnames.1 henter hdir
          (isPath_of_le (Text.byteLength_le_of_prefix (List.prefix_append _ _)) hshort')
      have hchild : childPath start name = join start name := by rw [childPath, if_neg hcurrent]
      have hstep := next?_ofName ht hstart hnames.1 henter (by rwa [hchild])
      rw [hchild] at hstep
      have hcurrent' := not_isCurrent_join hstart.ne_nil hcurrent hnames.1
      have hseen : Glob.seen (join start name) =
          Glob.seen start ++ (pieceComponent? name).toList := by
        rw [Glob.seen, if_neg hcurrent', Glob.seen, if_neg hcurrent,
          components_join hstart.ne_nil (isAbsolute_of_noSlash hnames.1), inner_of_noSlash hnames.1]
      obtain ⟨path, hpath⟩ := ih hnames.2 hnext hcurrent' hrest hshort'
      exact ⟨path, .cons hstep hseen { hpath with short := hpath.short.trans hle }⟩

end

/-! ## The start of a walk -/

theorem ofNames_cons (name : Text) (names : List Text) :
    ofNames (name :: names) = name ++ names.flatMap ('/' :: ·) := by
  induction names generalizing name with
  | nil => simp [ofNames]
  | cons next names ih =>
      rw [ofNames_cons_cons, ih, List.flatMap_cons, List.cons_append]

theorem byteLength_ofNames_le (name : Text) (names : List Text) :
    Text.byteLength (ofNames names) ≤ Text.byteLength (ofNames (name :: names)) := by
  cases names with
  | nil => exact Nat.zero_le _
  | cons next names =>
      have hslash : ofNames (name :: next :: names) = name ++ ['/'] ++ ofNames (next :: names) := by
        rw [ofNames_cons_cons, List.append_assoc, List.singleton_append]
      rw [hslash, Text.byteLength_append]
      exact Nat.le_add_left _ _

theorem reaches_name {name : Text} (hne : name ≠ []) (hname : '/' ∉ name)
    (henter : t.enter? t.workingDirectory name = some place) (hplace : t.isDirectoryAt place)
    (hshort : isPath name) : t.Reaches name place := by
  refine ⟨locate?_eq_some_iff.mpr ⟨hne, hshort, ?_⟩, hplace⟩
  rw [splitOn_of_noSlash hname, startOf, isAbsolute_of_noSlash hname, List.foldlM_cons]
  simp [henter]

theorem isDirectoryAt_workingDirectory (t : FileTree) : t.isDirectoryAt t.workingDirectory :=
  isDirectoryAt_iff.mpr (node?_working List.prefix_rfl)

theorem reaches_current (t : FileTree) : t.Reaches ['.'] t.workingDirectory := by
  have hdir := isDirectoryAt_workingDirectory t
  exact reaches_name (by simp) (by decide) (enter?_of_current hdir rfl) hdir (by decide)

theorem reaches_slash (t : FileTree) : t.Reaches ['/'] [] := by
  have hdir : t.isDirectoryAt [] := isDirectoryAt_iff.mpr (node?_working List.nil_prefix)
  have hsplit : ['/'].splitOn '/' = [[], []] := by decide
  refine ⟨locate?_eq_some_iff.mpr ⟨by simp, by decide, ?_⟩, hdir⟩
  rw [hsplit]
  simp [startOf, isAbsolute, enter?_of_current hdir, pieceComponent?]

section
variable (ps : List Pattern) {names : List Text}

/-- A walk that starts in the current directory passes over each `.` in front. -/
theorem exists_follows_relative (ht : t.WellFormed) (hnames : ∀ name ∈ names, '/' ∉ name)
    (hfirst : (names.dropWhile (· = ['.'])).head? ≠ some [])
    (hfold : names.foldlM t.enter? t.workingDirectory = some place) (hplace : t.isDirectoryAt place)
    (hshort : isPath (ofNames names)) :
    ∃ path, Follows t ps names ['.'] path place (max 1 (Text.byteLength (ofNames names))) := by
  induction names with
  | nil =>
      have hq : t.workingDirectory = place := Option.some.inj hfold
      subst hq
      exact ⟨['.'], rfl, reaches_current t, rfl, le_max_left _ _⟩
  | cons name names ih =>
      rw [List.forall_mem_cons] at hnames
      rw [List.foldlM_cons] at hfold
      obtain ⟨r, henter, hrest⟩ := Option.bind_eq_some_iff.mp hfold
      by_cases hdot : name = ['.']
      · subst hdot
        have hle := byteLength_ofNames_le ['.'] names
        rw [enter?_of_current (isDirectoryAt_workingDirectory t) rfl] at henter
        cases henter
        have hstep : next? t (.ofName ['.']) ⟨['.'], true⟩ = some [⟨['.'], true⟩] :=
          next?_ofName ht (reaches_current t) hnames.1
            (enter?_of_current (isDirectoryAt_workingDirectory t) rfl) (reaches_current t)
        obtain ⟨path, hpath⟩ := ih hnames.2 (by simpa using hfirst) hrest (isPath_of_le hle hshort)
        exact ⟨path, .cons hstep rfl { hpath with short := hpath.short.trans (by omega) }⟩
      · have hne : name ≠ [] := by
          rintro rfl
          exact hfirst rfl
        have hdir := isDirectoryAt_of_foldlM hrest hplace
        have hjoin := ofNames_cons name names
        have hprefix : name <+: ofNames (name :: names) := ⟨_, hjoin.symm⟩
        have hnext := reaches_name hne hnames.1 henter hdir
          (isPath_of_le (Text.byteLength_le_of_prefix hprefix) hshort)
        have hcomponents := components_of_noSlash hnames.1 hdot
        have hcurrent : ¬ isCurrent name := by
          simp only [isCurrent, hcomponents, decide_eq_true_eq, Option.toList_eq_singleton_iff]
          exact pieceComponent?_ne_current name
        have hseen : seen name = seen ['.'] ++ (pieceComponent? name).toList := by
          rw [seen, if_neg hcurrent, hcomponents]
          rfl
        have hstep : next? t (.ofName name) ⟨['.'], true⟩ = some [⟨name, true⟩] :=
          next?_ofName ht (reaches_current t) hnames.1 henter hnext
        rw [hjoin] at hshort ⊢
        obtain ⟨path, hpath⟩ := exists_follows ht hnames.2 hnext hcurrent hrest hplace hshort
        exact ⟨path, .cons hstep hseen { hpath with short := hpath.short.trans (le_max_right _ _) }⟩

theorem exists_follows_absolute (ht : t.WellFormed) (hne : names ≠ [])
    (hnames : ∀ name ∈ names, '/' ∉ name) (hfold : names.foldlM t.enter? [] = some place)
    (hplace : t.isDirectoryAt place) (hshort : isPath ('/' :: ofNames names)) :
    ∃ path, Follows t ps names ['/'] path place (Text.byteLength ('/' :: ofNames names)) := by
  obtain ⟨name, names, rfl⟩ := List.exists_cons_of_ne_nil hne
  rw [List.forall_mem_cons] at hnames
  rw [List.foldlM_cons] at hfold
  obtain ⟨r, henter, hrest⟩ := Option.bind_eq_some_iff.mp hfold
  have hdir := isDirectoryAt_of_foldlM hrest hplace
  have hrelative := isAbsolute_of_noSlash hnames.1
  have hjoin : join ['/'] name = '/' :: name := by simp [join, hrelative]
  have hprefix : '/' :: name <+: '/' :: ofNames (name :: names) :=
    ⟨names.flatMap ('/' :: ·), by rw [ofNames_cons]; rfl⟩
  have hnext : t.Reaches ('/' :: name) r := by
    rw [← hjoin]
    apply reaches_join (reaches_slash t) hnames.1 henter hdir
    rw [hjoin]
    exact isPath_of_le (Text.byteLength_le_of_prefix hprefix) hshort
  have hcurrent : ¬ isCurrent ('/' :: name) := by
    rw [← hjoin]
    exact not_isCurrent_join (by simp) (by decide) hnames.1
  have hseen : seen ('/' :: name) = seen ['/'] ++ (pieceComponent? name).toList := by
    rw [seen, if_neg hcurrent, ← hjoin, components_join (by simp) hrelative,
      inner_of_noSlash hnames.1]
    rfl
  have hstep := next?_ofName ht (reaches_slash t) hnames.1 henter
    (by rwa [childPath, if_neg (by decide), hjoin])
  rw [childPath, if_neg (by decide), hjoin] at hstep
  rw [ofNames_cons] at hshort ⊢
  obtain ⟨path, hpath⟩ := exists_follows ht hnames.2 hnext hcurrent hrest hplace hshort
  exact ⟨path, .cons hstep hseen hpath⟩

end

/-- A root that a walk can follow.  An empty piece with nothing but `.` in front leads a
walk nowhere. -/
def IsFollowed (root : Text) : Prop :=
  isAbsolute root ∨ ((root.splitOn '/').dropWhile (· = ['.'])).head? ≠ some []

instance (root : Text) : Decidable (IsFollowed root) :=
  inferInstanceAs (Decidable (_ ∨ _))

theorem exists_follows_root (ht : t.WellFormed) {root : Text} (hroot : t.Reaches root place)
    (hfollowed : IsFollowed root) (ps : List Pattern) :
    ∃ path, Follows t ps (rootNames root) (if isAbsolute root then ['/'] else ['.']) path place
      (Text.byteLength root) := by
  obtain ⟨hne, hshort, hfold⟩ := locate?_eq_some_iff.mp hroot.leads
  have hnames : ∀ name ∈ rootNames root, '/' ∉ name := fun _ hname => noSlash_of_mem_splitOn hname
  by_cases habsolute : isAbsolute root
  · obtain ⟨c, rest, rfl⟩ := List.exists_cons_of_ne_nil hne
    have hc : c = '/' := by simpa [isAbsolute] using habsolute
    subst hc
    have hsplit : ('/' :: rest).splitOn '/' = [] :: rest.splitOn '/' := splitOn_slash [] rest
    have hjoin : ofNames (rest.splitOn '/') = rest := Text.join_splitOn '/' rest
    have hstart : t.startOf ('/' :: rest) = [] := by rw [startOf, if_pos habsolute]
    rw [hsplit, hstart, List.foldlM_cons,
      enter?_of_current (reaches_slash t).isDirectory rfl] at hfold
    have hfollows := exists_follows_absolute ps ht (List.splitOn_ne_nil '/' rest) hnames
      hfold hroot.isDirectory
    rw [hjoin] at hfollows
    rw [if_pos habsolute]
    exact hfollows hshort
  · have hrelative : isAbsolute root = false := by simpa using habsolute
    have hjoin : ofNames (root.splitOn '/') = root := Text.join_splitOn '/' root
    have hstart : t.startOf root = t.workingDirectory := by rw [startOf, if_neg habsolute]
    have hrootNames : rootNames root = root.splitOn '/' := by rw [rootNames, if_neg habsolute]
    rw [hstart] at hfold
    have hfollows := exists_follows_relative ps ht (hrootNames ▸ hnames)
      (hfollowed.resolve_left habsolute) hfold hroot.isDirectory
    have hlength : 1 ≤ Text.byteLength root := by
      rw [Nat.one_le_iff_ne_zero, ne_eq, Text.byteLength_eq_zero_iff]
      exact hne
    rw [hjoin, max_eq_right hlength] at hfollows
    rw [if_neg habsolute, hrootNames]
    exact hfollows hshort

theorem pieces_of_noSlash {s : Text} (hne : s ≠ []) (h : '/' ∉ s) : pieces s = [s] := by
  unfold pieces
  rw [splitOn_of_noSlash h]
  simp [hne]

/-- The pattern of the names below a root that end in an extension. -/
theorem ofText?_extension {root ext : Text} (hroot : root ≠ [])
    (hspecial : ext.any isSpecialChar = false) (hslash : '/' ∉ ext) :
    PathPattern.ofText? (escape root ++ "/**/*.".toList ++ ext) = some {
      absolute := isAbsolute root
      names := (rootNames root).map .ofName ++ [.anyDepth, .endingIn ('.' :: ext)]
      directoriesOnly := false } := by
  have hescape : escape ('.' :: ext) = '.' :: ext := by
    apply escape_eq_self
    rw [List.any_cons, hspecial]
    rfl
  have hstar : Pattern.ofText? ('*' :: '.' :: ext) = some (.endingIn ('.' :: ext)) := by
    rw [← hescape, ofText?_star_escape, hescape]
  have hpieces : pieces ("*.".toList ++ ext) = ['*' :: '.' :: ext] :=
    pieces_of_noSlash (by simp) (by simpa using hslash)
  have hlast : decide (ext.getLast? = some '/') = false := by
    rw [decide_eq_false_iff_not]
    exact fun hlast => hslash (List.mem_of_getLast? hlast)
  rw [ofText?_below_root hroot, hpieces, hlast, List.mapM_cons, hstar]
  rfl

/-- A walk below an escaped root comes to the places below the root whose last name ends in
the extension, each once, by paths that are no longer than their names behind the root. -/
theorem exists_walk? (ht : t.WellFormed) {root : Text} (hroot : t.Reaches root place)
    (hfollowed : IsFollowed root) {ext : Text} (hspecial : ext.any isSpecialChar = false)
    (hslash : '/' ∉ ext) (hshort : ∀ names ∈ t.below place, isPath (root ++ '/' :: ofNames names)) :
    ∃ pattern path,
      PathPattern.ofText? (escape root ++ "/**/*.".toList ++ ext) = some pattern ∧
        t.Reaches path place ∧ seen path = steps root ∧
        Text.byteLength path ≤ Text.byteLength root ∧
        walk? t pattern =
          some (((t.below place).filter fun names => '.' :: ext <:+ names.getLastD []).map
            fun names => childPath path (ofNames names)) := by
  obtain ⟨path, hpath⟩ :=
    exists_follows_root ht hroot hfollowed [.anyDepth, .endingIn ('.' :: ext)]
  refine ⟨_, path, ofText?_extension hroot.ne_nil hspecial hslash, hpath.reaches, ?_,
    hpath.short, ?_⟩
  · rw [hpath.seen, ← steps_root hroot.ne_nil]
    split <;> rfl
  · have hbelow : ∀ names ∈ t.below place, isPath (childPath path (ofNames names)) :=
      fun names hnames => isPath_childPath hpath.short (hshort names hnames)
    have hstart : Spot.at t (if isAbsolute root then ['/'] else ['.']) =
        ⟨if isAbsolute root then ['/'] else ['.'], true⟩ := by
      split
      · rw [Spot.at, (reaches_slash t).isDirectory_path]
      · rw [Spot.at, (reaches_current t).isDirectory_path]
    have hmerge : mergeAnyDepth [.anyDepth, .endingIn ('.' :: ext)] =
        [.anyDepth, .endingIn ('.' :: ext)] := rfl
    rw [walk?, mergeAnyDepth_names, hmerge, hstart, hpath.expand,
      expand?_below hpath.reaches _ hbelow]
    congr 3
    funext names
    rw [← Bool.decide_coe ((Pattern.endingIn ('.' :: ext)).accepts _), decide_eq_decide]
    exact Pattern.endingIn_accepts _ _

end

end Glob
end ApiManual
