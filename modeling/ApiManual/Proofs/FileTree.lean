import ApiManual.FileTree
import ApiManual.Proofs.Path.Components
import Mathlib.Data.List.Infix
import Mathlib.Data.List.Nodup

/-!
# Places in a file tree

What is at a place of a well-formed file tree, what a directory lists, and where the path
of a name below a directory leads.
-/

namespace ApiManual
namespace FileTree

open ApiManual.Path

/-- Places are made of names. -/
def Named (t : FileTree) : Prop :=
  ∀ entry ∈ t.nodes, ∀ name ∈ entry.1, IsName name

instance (t : FileTree) : Decidable t.Named :=
  inferInstanceAs (Decidable (∀ entry ∈ t.nodes, ∀ name ∈ entry.1, IsName name))

/-- A file tree as a file system can hold it. -/
structure WellFormed (t : FileTree) : Prop where
  named : t.Named
  /-- Nothing is at a place twice. -/
  distinct : (t.nodes.map Prod.fst).Nodup
  /-- Whatever is there is in a directory. -/
  parents : ∀ p n, (p, n) ∈ t.nodes → ∀ q, q <+: p → q ≠ p → t.isDirectoryAt q
  /-- The way to the working directory is listed. -/
  working : ∀ p, p ≠ [] → p <+: t.workingDirectory → p ∈ t.nodes.map Prod.fst

instance (t : FileTree) : Decidable t.WellFormed :=
  decidable_of_iff
    (t.Named ∧ (t.nodes.map Prod.fst).Nodup ∧
      (∀ entry ∈ t.nodes, ∀ q ∈ entry.1.inits, q ≠ entry.1 → t.isDirectoryAt q) ∧
      ∀ p ∈ t.workingDirectory.inits, p ≠ [] → p ∈ t.nodes.map Prod.fst)
    { mp := fun ⟨hnamed, hdistinct, hparents, hworking⟩ =>
        ⟨hnamed, hdistinct,
          fun p n h q hq => hparents (p, n) h q ((List.mem_inits _ _).mpr hq),
          fun p hne hp => hworking p ((List.mem_inits _ _).mpr hp) hne⟩
      mpr := fun h =>
        ⟨h.named, h.distinct,
          fun entry hentry q hq => h.parents entry.1 entry.2 hentry q ((List.mem_inits _ _).mp hq),
          fun p hp hne => h.working p hne ((List.mem_inits _ _).mp hp)⟩ }

section
variable {t : FileTree} {place : Location}

theorem isDirectoryAt_iff : t.isDirectoryAt place ↔ t.node? place = some .directory := by
  unfold isDirectoryAt
  split
  · rename_i h
    simp [h]
  · rename_i h
    simp only [Bool.false_eq_true, false_iff]
    exact h

theorem isSome_lookup_iff {α : Type} (entries : List (Location × α)) :
    (entries.lookup place).isSome ↔ place ∈ entries.map Prod.fst := by
  rw [List.lookup_isSome_iff, List.mem_map]
  constructor
  · rintro ⟨pair, hpair, heq⟩
    exact ⟨pair, hpair, (beq_iff_eq.mp heq).symm⟩
  · rintro ⟨pair, hpair, heq⟩
    exact ⟨pair, hpair, beq_iff_eq.mpr heq.symm⟩

theorem mem_of_lookup {nodes : List (Location × Node)} {node : Node}
    (h : nodes.lookup place = some node) : (place, node) ∈ nodes := by
  obtain ⟨front, back, rfl, -⟩ := List.lookup_eq_some_iff.mp h
  simp

theorem node?_working (h : place <+: t.workingDirectory) : t.node? place = some .directory := by
  rw [node?, List.isPrefixOf_iff_prefix.mpr h, if_pos rfl]

theorem node?_elsewhere (h : ¬ place <+: t.workingDirectory) :
    t.node? place = t.nodes.lookup place := by
  rw [← List.isPrefixOf_iff_prefix] at h
  rw [node?, if_neg h]

/-! ## What is there -/

theorem WellFormed.isSome_iff (ht : t.WellFormed) (hne : place ≠ []) :
    (t.node? place).isSome ↔ place ∈ t.nodes.map Prod.fst := by
  by_cases hprefix : place <+: t.workingDirectory
  · rw [node?_working hprefix]
    exact ⟨fun _ => ht.working place hne hprefix, fun _ => rfl⟩
  · rw [node?_elsewhere hprefix, isSome_lookup_iff]

theorem WellFormed.isName (ht : t.WellFormed) (h : (t.node? place).isSome) :
    ∀ name ∈ place, IsName name := by
  intro name hname
  have hne : place ≠ [] := List.ne_nil_of_mem hname
  obtain ⟨⟨p, n⟩, hmem, rfl⟩ := List.mem_map.mp ((ht.isSome_iff hne).mp h)
  exact ht.named (p, n) hmem name hname

theorem WellFormed.isDirectoryAt (ht : t.WellFormed) (h : (t.node? place).isSome)
    {q : Location} (hq : q <+: place) (hne : q ≠ place) : t.isDirectoryAt q := by
  have hplace : place ≠ [] := by
    rintro rfl
    exact hne (List.prefix_nil.mp hq)
  obtain ⟨⟨p, n⟩, hmem, rfl⟩ := List.mem_map.mp ((ht.isSome_iff hplace).mp h)
  exact ht.parents p n hmem q hq hne

/-- The files below a place: their contents under the names that lead to them. -/
def filesBelow (t : FileTree) (place names : Location) : Option ByteArray :=
  match t.node? (place ++ names) with
  | some (.file content) => some content
  | _ => none

theorem filesBelow_eq_some_iff {names : Location} {content : ByteArray} :
    t.filesBelow place names = some content ↔
      t.node? (place ++ names) = some (.file content) := by
  unfold filesBelow
  split
  · rename_i h
    simp [h]
  · rename_i h
    simp only [reduceCtorEq, false_iff]
    exact h content

theorem Named.isName_of_filesBelow (ht : t.Named) {names : Location} {content : ByteArray}
    (h : t.filesBelow place names = some content) : ∀ name ∈ names, IsName name := by
  rw [filesBelow_eq_some_iff] at h
  have hlisted : ¬ place ++ names <+: t.workingDirectory := by
    intro hprefix
    rw [node?_working hprefix] at h
    cases h
  rw [node?_elsewhere hlisted] at h
  exact fun name hname => ht _ (mem_of_lookup h) name (List.mem_append_right _ hname)

/-! ## What a directory lists -/

theorem mem_below_iff {names : Location} :
    names ∈ t.below place ↔ names ≠ [] ∧ place ++ names ∈ t.nodes.map Prod.fst := by
  unfold below
  rw [List.mem_mergeSort, List.mem_map]
  constructor
  · rintro ⟨⟨p, n⟩, hmem, rfl⟩
    simp only [List.mem_filter, Bool.and_eq_true, List.isPrefixOf_iff_prefix,
      decide_eq_true_eq] at hmem
    obtain ⟨hmem, ⟨rest, rfl⟩, hlen⟩ := hmem
    simp only [List.drop_left]
    refine ⟨?_, List.mem_map.mpr ⟨_, hmem, rfl⟩⟩
    rintro rfl
    simp at hlen
  · rintro ⟨hne, hmem⟩
    obtain ⟨⟨p, n⟩, hmem, hp⟩ := List.mem_map.mp hmem
    simp only at hp
    subst hp
    refine ⟨(place ++ names, n), ?_, List.drop_left⟩
    have hlen : 0 < names.length := List.length_pos_of_ne_nil hne
    simp only [List.mem_filter, Bool.and_eq_true, List.isPrefixOf_iff_prefix, decide_eq_true_eq,
      List.length_append]
    exact ⟨hmem, List.prefix_append _ _, by omega⟩

theorem Named.isName_of_mem_below (ht : t.Named) {names : Location} (h : names ∈ t.below place) :
    ∀ name ∈ names, IsName name := by
  obtain ⟨⟨p, n⟩, hmem, hp⟩ := List.mem_map.mp (mem_below_iff.mp h).2
  simp only at hp
  subst hp
  exact fun name hname => ht _ hmem name (List.mem_append_right _ hname)

theorem WellFormed.mem_below_iff (ht : t.WellFormed) {names : Location} :
    names ∈ t.below place ↔ names ≠ [] ∧ (t.node? (place ++ names)).isSome := by
  rw [FileTree.mem_below_iff]
  constructor
  · rintro ⟨hne, hmem⟩
    exact ⟨hne, (ht.isSome_iff (by simp [hne])).mpr hmem⟩
  · rintro ⟨hne, hsome⟩
    exact ⟨hne, (ht.isSome_iff (by simp [hne])).mp hsome⟩

theorem WellFormed.nodup_below (ht : t.WellFormed) : (t.below place).Nodup := by
  unfold below
  rw [(List.mergeSort_perm _ _).nodup_iff]
  -- The front that all these places share can be put back.
  have hrestore : ∀ inside : List (Location × Node), (∀ entry ∈ inside, place <+: entry.1) →
      inside.map (fun entry => place ++ entry.1.drop place.length) = inside.map Prod.fst := by
    intro inside hinside
    apply List.map_congr_left
    rintro ⟨p, n⟩ hmem
    obtain ⟨rest, rfl⟩ := hinside _ hmem
    simp
  apply List.Nodup.of_map (place ++ ·)
  rw [List.map_map]
  refine (congrArg List.Nodup (hrestore _ ?_)).mpr ?_
  · rintro ⟨p, n⟩ hmem
    simp only [List.mem_filter, Bool.and_eq_true, List.isPrefixOf_iff_prefix] at hmem
    exact hmem.2.1
  · exact ht.distinct.sublist (List.filter_sublist.map Prod.fst)

theorem mem_children_iff {name : Text} : name ∈ t.children place ↔ [name] ∈ t.below place := by
  unfold children
  rw [List.mem_filterMap]
  constructor
  · rintro ⟨names, hmem, hname⟩
    split at hname
    · cases hname
      exact hmem
    · cases hname
  · intro hmem
    exact ⟨[name], hmem, rfl⟩

theorem WellFormed.nodup_children (ht : t.WellFormed) : (t.children place).Nodup := by
  unfold children
  apply ht.nodup_below.filterMap
  intro a b name ha hb
  split at ha
  · cases ha
    split at hb
    · cases hb
      rfl
    · cases hb
  · cases ha

theorem WellFormed.mem_children_iff (ht : t.WellFormed) {name : Text} :
    name ∈ t.children place ↔ (t.node? (place ++ [name])).isSome := by
  rw [FileTree.mem_children_iff, ht.mem_below_iff]
  simp

/-! ## Where paths lead -/

theorem isPath_of_le {path long : Text} (h : Text.byteLength path ≤ Text.byteLength long)
    (hlong : isPath long) : isPath path := by
  simp only [isPath, decide_eq_true_eq] at hlong ⊢
  omega

theorem locate?_eq_some_iff {path : Text} :
    t.locate? path = some place ↔
      path ≠ [] ∧ isPath path ∧
        (path.splitOn '/').foldlM t.enter? (t.startOf path) = some place := by
  unfold locate?
  by_cases hbad : path.isEmpty || !isPath path
  · rw [if_pos hbad]
    simp only [Bool.or_eq_true, List.isEmpty_iff, Bool.not_eq_true', reduceCtorEq,
      false_iff] at hbad ⊢
    rintro ⟨hne, hshort, -⟩
    rcases hbad with hempty | hlong
    · exact hne hempty
    · rw [hshort] at hlong
      cases hlong
  · rw [if_neg hbad]
    simp only [Bool.or_eq_true, List.isEmpty_iff, Bool.not_eq_true', not_or,
      Bool.not_eq_false] at hbad
    simp [hbad]

/-- A path leads to a directory. -/
structure Reaches (t : FileTree) (path : Text) (place : Location) : Prop where
  leads : t.locate? path = some place
  isDirectory : t.isDirectoryAt place

theorem Reaches.ne_nil {path : Text} (h : t.Reaches path place) : path ≠ [] :=
  (locate?_eq_some_iff.mp h.leads).1

theorem Reaches.isDirectory_path {path : Text} (h : t.Reaches path place) : t.isDirectory path := by
  have hget : t.get? path = some .directory := by
    rw [get?, h.leads, Option.bind_some, isDirectoryAt_iff.mp h.isDirectory]
  rw [FileTree.isDirectory, hget]

theorem Reaches.place_eq {path : Text} {q : Location} (h : t.Reaches path place)
    (h' : t.Reaches path q) : place = q :=
  Option.some.inj (h.leads.symm.trans h'.leads)

theorem exists_reaches {path : Text} (h : t.isDirectory path) :
    ∃ place, t.Reaches path place := by
  unfold FileTree.isDirectory FileTree.get? at h
  cases hleads : t.locate? path with
  | none => simp [hleads] at h
  | some place =>
      refine ⟨place, hleads, isDirectoryAt_iff.mpr ?_⟩
      rw [hleads, Option.bind_some] at h
      split at h
      · assumption
      · cases h

theorem enter?_of_current {piece : Text} (hdir : t.isDirectoryAt place)
    (hpiece : pieceComponent? piece = none) : t.enter? place piece = some place := by
  have hskip : piece = [] || piece = ['.'] := by
    simpa using pieceComponent?_eq_none_iff.mp hpiece
  rw [enter?, hdir, hskip]
  rfl

theorem isDirectoryAt_of_enter? {piece : Text} {q : Location}
    (h : t.enter? place piece = some q) : t.isDirectoryAt place := by
  unfold enter? at h
  split at h
  · cases h
  · rename_i hdir
    simpa using hdir

/-- A way starts at a directory if it ends at one. -/
theorem isDirectoryAt_of_foldlM {pieces : List Text} {q : Location}
    (h : pieces.foldlM t.enter? place = some q) (hq : t.isDirectoryAt q) :
    t.isDirectoryAt place := by
  cases pieces with
  | nil =>
      cases h
      exact hq
  | cons piece pieces =>
      rw [List.foldlM_cons] at h
      obtain ⟨next, hnext, -⟩ := Option.bind_eq_some_iff.mp h
      exact isDirectoryAt_of_enter? hnext

/-- Pieces that do not count lead nowhere else. -/
theorem eq_of_foldlM_of_none {pieces : List Text}
    (h : ∀ piece ∈ pieces, pieceComponent? piece = none) {q : Location}
    (hq : pieces.foldlM t.enter? place = some q) : q = place := by
  induction pieces with
  | nil => exact (Option.some.inj hq).symm
  | cons piece pieces ih =>
      rw [List.forall_mem_cons] at h
      rw [List.foldlM_cons] at hq
      obtain ⟨next, hnext, hrest⟩ := Option.bind_eq_some_iff.mp hq
      rw [enter?_of_current (isDirectoryAt_of_enter? hnext) h.1] at hnext
      cases hnext
      exact ih h.2 hrest

theorem enter?_name {name : Text} (hdir : t.isDirectoryAt place) (hname : IsName name) :
    t.enter? place name =
      if (t.node? (place ++ [name])).isSome then some (place ++ [name]) else none := by
  have hcounts := hname.counts
  unfold pieceComponent? at hcounts
  split at hcounts
  · cases hcounts
  · rename_i hskip
    split at hcounts
    · cases hcounts
    · rename_i hparent
      rw [enter?, hdir, if_neg (by simp), if_neg (by simpa using hskip), if_neg hparent]

theorem WellFormed.foldlM_enter? (ht : t.WellFormed) {names : Location}
    (hsome : (t.node? (place ++ names)).isSome) :
    names.foldlM t.enter? place = some (place ++ names) := by
  induction names generalizing place with
  | nil => simp
  | cons name names ih =>
      rw [List.append_cons] at hsome
      have hname : IsName name := ht.isName hsome name (by simp)
      have hdir : t.isDirectoryAt place := by
        apply ht.isDirectoryAt hsome
        · rw [List.append_assoc]
          exact List.prefix_append _ _
        · simp
      have hnext : (t.node? (place ++ [name])).isSome := by
        by_cases hnames : names = []
        · simpa [hnames] using hsome
        · have hparent : t.isDirectoryAt (place ++ [name]) :=
            ht.isDirectoryAt hsome (List.prefix_append _ _) (by simpa using hnames)
          rw [isDirectoryAt_iff.mp hparent]
          rfl
      rw [List.foldlM_cons, enter?_name hdir hname, if_pos hnext]
      exact (ih hsome).trans (by rw [← List.append_cons])

theorem startOf_join {base path : Text} (hbase : base ≠ []) (hpath : isAbsolute path = false) :
    t.startOf (join base path) = t.startOf base := by
  rw [startOf, isAbsolute_join hbase hpath, startOf]

theorem foldlM_basePieces {base : Text} (h : t.locate? base = some place) :
    (basePieces base).foldlM t.enter? (t.startOf base) = some place := by
  obtain ⟨-, -, hfold⟩ := locate?_eq_some_iff.mp h
  rw [splitOn_eq_basePieces] at hfold
  split at hfold
  · -- A slash at the end asks for a directory and leads nowhere else.
    rw [List.foldlM_append] at hfold
    obtain ⟨q, hq, hlast⟩ := Option.bind_eq_some_iff.mp hfold
    have hstay : t.isDirectoryAt q ∧ q = place := by simpa [enter?] using hlast
    rw [hq, hstay.2]
  · simpa using hfold

/-- A path below a place is followed from there. -/
theorem locate?_join {base path : Text} (hbase : t.locate? base = some place)
    (hpath : isAbsolute path = false) (hshort : isPath (join base path)) :
    t.locate? (join base path) = (path.splitOn '/').foldlM t.enter? place := by
  have hne : base ≠ [] := (locate?_eq_some_iff.mp hbase).1
  have hfold : ((join base path).splitOn '/').foldlM t.enter? (t.startOf (join base path)) =
      (path.splitOn '/').foldlM t.enter? place := by
    rw [splitOn_join hne hpath, startOf_join hne hpath, List.foldlM_append,
      foldlM_basePieces hbase]
    rfl
  have hjoin : join base path ≠ [] := by
    rw [join_eq hne hpath]
    split
    · exact List.append_ne_nil_of_left_ne_nil hne _
    · simp
  apply Option.ext
  intro q
  rw [locate?_eq_some_iff, hfold]
  simp [hjoin, hshort]

theorem WellFormed.locate?_join_ofNames (ht : t.WellFormed) {base : Text} {names : Location}
    (hbase : t.locate? base = some place) (hnames : names ≠ [])
    (hsome : (t.node? (place ++ names)).isSome) (hshort : isPath (join base (ofNames names))) :
    t.locate? (join base (ofNames names)) = some (place ++ names) := by
  have hall : ∀ name ∈ names, IsName name :=
    fun name hname => ht.isName hsome name (List.mem_append_right _ hname)
  rw [locate?_join hbase (isAbsolute_ofNames hall) hshort,
    splitOn_ofNames hnames fun name hname => (hall name hname).noSlash]
  exact ht.foldlM_enter? hsome

end

end FileTree
end ApiManual
