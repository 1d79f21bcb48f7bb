import ApiManual.Proofs.FileTree
import ApiManual.Proofs.Path.Tail

/-!
# Changes of a file tree

Directories are made where nothing is, and files are written where no directory is.  So
whatever a path led to it still leads to afterwards.  Two trees that look the same below
a place of each keep looking the same when the same is done in both.
-/

namespace ApiManual
namespace FileTree

open ApiManual.Path

/-! ## One node -/

section
variable {t : FileTree} {place : Location}

theorem lookup_cons_if {α : Type} (p q : Location) (a : α) (entries : List (Location × α)) :
    ((p, a) :: entries).lookup q = if q = p then some a else entries.lookup q := by
  rw [List.lookup_cons]
  by_cases hq : q = p
  · simp [hq]
  · have hne : (q == p) = false := beq_eq_false_iff_ne.mpr hq
    simp [hq, hne]

theorem lookup_update (nodes : List (Location × Node)) (node : Node) (q : Location) :
    (nodes.map fun (p, n) => if p = place then (p, node) else (p, n)).lookup q =
      if q = place then (nodes.lookup q).map fun _ => node else nodes.lookup q := by
  induction nodes with
  | nil => simp
  | cons entry nodes ih =>
      obtain ⟨p, n⟩ := entry
      rw [List.map_cons, lookup_cons_if]
      by_cases hp : p = place
      · subst hp
        simp only [if_true, lookup_cons_if, ih]
        split <;> rfl
      · simp only [hp, if_false, lookup_cons_if, ih]
        by_cases hq : q = p
        · subst hq
          simp [hp]
        · simp [hq]

theorem workingDirectory_insert (t : FileTree) (place : Location) (node : Node) :
    (t.insert place node).workingDirectory = t.workingDirectory := by
  unfold insert
  split <;> rfl

theorem node?_insert (h : ¬ t.isDirectoryAt place) (node : Node) (q : Location) :
    (t.insert place node).node? q = if q = place then some node else t.node? q := by
  have hplace : ¬ place <+: t.workingDirectory := fun hprefix =>
    h (isDirectoryAt_iff.mpr (node?_working hprefix))
  have hworking := workingDirectory_insert t place node
  by_cases hprefix : q <+: t.workingDirectory
  · have hne : q ≠ place := by
      rintro rfl
      exact hplace hprefix
    rw [node?_working (by rwa [hworking]), node?_working hprefix, if_neg hne]
  · rw [node?_elsewhere (by rwa [hworking]), node?_elsewhere hprefix]
    unfold insert
    split
    · rename_i hthere
      have hsome : (t.nodes.lookup place).isSome := by
        rw [isSome_lookup_iff, List.mem_map]
        simpa using hthere
      rw [lookup_update]
      split
      · rename_i hq
        obtain ⟨old, hold⟩ := Option.isSome_iff_exists.mp hsome
        rw [hq, hold]
        rfl
      · rfl
    · rename_i hthere
      have hnone : t.nodes.lookup place = none := by
        rw [← Option.not_isSome_iff_eq_none, isSome_lookup_iff, List.mem_map]
        simpa using hthere
      rw [List.lookup_append, lookup_cons_if]
      split
      · rename_i hq
        rw [hq, hnone]
        rfl
      · simp

end

/-! ## What changes keep -/

/-- Directories stay directories, and what is there stays there. -/
structure Extends (t t' : FileTree) : Prop where
  workingDirectory : t'.workingDirectory = t.workingDirectory
  directories : ∀ p, t.isDirectoryAt p → t'.isDirectoryAt p
  present : ∀ p, (t.node? p).isSome → (t'.node? p).isSome

section
variable {t t' t'' : FileTree} {place : Location}

theorem Extends.refl (t : FileTree) : t.Extends t :=
  ⟨rfl, fun _ h => h, fun _ h => h⟩

theorem Extends.trans (h : t.Extends t') (h' : t'.Extends t'') : t.Extends t'' :=
  ⟨h'.workingDirectory.trans h.workingDirectory,
    fun p hp => h'.directories p (h.directories p hp), fun p hp => h'.present p (h.present p hp)⟩

theorem Extends.insert (h : ¬ t.isDirectoryAt place) (node : Node) :
    t.Extends (t.insert place node) where
  workingDirectory := workingDirectory_insert _ _ _
  directories := by
    intro p hp
    have hne : p ≠ place := by
      rintro rfl
      exact h hp
    rw [isDirectoryAt_iff] at hp ⊢
    rw [node?_insert h, if_neg hne, hp]
  present := by
    intro p hp
    rw [node?_insert h]
    split
    · rfl
    · exact hp

theorem Extends.enter? (h : t.Extends t') {piece : Text} {q : Location}
    (hq : t.enter? place piece = some q) : t'.enter? place piece = some q := by
  unfold FileTree.enter? at hq ⊢
  split at hq
  · cases hq
  · rename_i hdir
    have hdir' : t'.isDirectoryAt place := h.directories place (by simpa using hdir)
    rw [if_neg (by simp [hdir'])]
    split at hq
    · rename_i hcurrent
      rwa [if_pos hcurrent]
    · rename_i hcurrent
      rw [if_neg hcurrent]
      split at hq
      · rename_i hparent
        rwa [if_pos hparent]
      · rename_i hparent
        rw [if_neg hparent]
        split at hq
        · rename_i hsome
          rwa [if_pos (h.present _ hsome)]
        · cases hq

theorem Extends.foldlM_enter? (h : t.Extends t') {pieces : List Text} {q : Location}
    (hq : pieces.foldlM t.enter? place = some q) : pieces.foldlM t'.enter? place = some q := by
  induction pieces generalizing place with
  | nil => exact hq
  | cons piece pieces ih =>
      rw [List.foldlM_cons] at hq ⊢
      obtain ⟨next, hnext, hrest⟩ := Option.bind_eq_some_iff.mp hq
      rw [h.enter? hnext]
      exact ih hrest

theorem Extends.locate? (h : t.Extends t') {path : Text} (hpath : t.locate? path = some place) :
    t'.locate? path = some place := by
  rw [locate?_eq_some_iff] at hpath ⊢
  obtain ⟨hne, hshort, hfold⟩ := hpath
  refine ⟨hne, hshort, ?_⟩
  have hstart : t'.startOf path = t.startOf path := by rw [startOf, startOf, h.workingDirectory]
  rw [hstart]
  exact h.foldlM_enter? hfold

theorem Extends.reaches (h : t.Extends t') {path : Text} (hpath : t.Reaches path place) :
    t'.Reaches path place :=
  ⟨h.locate? hpath.leads, h.directories _ hpath.isDirectory⟩

/-! ## Making directories -/

theorem createPieces_skip {piece : Text} (h : pieceComponent? piece = none) (t : FileTree)
    (place : Location) (rest : List Text) :
    t.createPieces place (piece :: rest) = t.createPieces place rest := by
  have hskip : piece = [] || piece = ['.'] := by simpa using pieceComponent?_eq_none_iff.mp h
  rw [createPieces, if_pos hskip]

/-- Pieces that do not count make no difference. -/
theorem createPieces_eq_of_filterMap {pieces others : List Text}
    (h : pieces.filterMap pieceComponent? = others.filterMap pieceComponent?) (t : FileTree)
    (place : Location) : t.createPieces place pieces = t.createPieces place others := by
  have hcounting : ∀ (pieces : List Text) (t : FileTree) (place : Location),
      t.createPieces place pieces =
        t.createPieces place ((pieces.filterMap pieceComponent?).map Component.text) := by
    intro pieces
    induction pieces with
    | nil => intros; rfl
    | cons piece pieces ih =>
        intro t place
        rw [List.filterMap_cons]
        cases hpiece : pieceComponent? piece with
        | none => rw [createPieces_skip hpiece, ih]
        | some c =>
            simp only [List.map_cons, text_of_counts hpiece, createPieces, ih]
  rw [hcounting pieces, hcounting others, h]

theorem createPieces_name {name : Text} (hname : IsName name) (t : FileTree) (place : Location)
    (rest : List Text) :
    t.createPieces place (name :: rest) =
      match t.node? (place ++ [name]) with
      | some .directory => t.createPieces (place ++ [name]) rest
      | some (.file _) => (t, false)
      | none =>
        if isName name then
          (t.insert (place ++ [name]) .directory).createPieces (place ++ [name]) rest
        else
          (t, false) := by
  obtain ⟨hempty, hdot, hdots, -⟩ := isName_iff.mp hname
  rw [createPieces]
  exact (if_neg (by simp [hempty, hdot])).trans (if_neg hdots)

/-- Where all directories are there already, none is made. -/
theorem createPieces_append {pieces : List Text} {q : Location}
    (h : pieces.foldlM t.enter? place = some q) (hq : t.isDirectoryAt q) (rest : List Text) :
    t.createPieces place (pieces ++ rest) = t.createPieces q rest := by
  induction pieces generalizing place with
  | nil =>
      cases h
      rfl
  | cons piece pieces ih =>
      rw [List.foldlM_cons] at h
      obtain ⟨next, hnext, hrest⟩ := Option.bind_eq_some_iff.mp h
      have hdir := isDirectoryAt_of_foldlM hrest hq
      rw [← ih hrest, List.cons_append, createPieces]
      unfold enter? at hnext
      split at hnext
      · cases hnext
      · split at hnext
        · rename_i hcurrent
          cases hnext
          rw [if_pos hcurrent]
        · rename_i hcurrent
          rw [if_neg hcurrent]
          split at hnext
          · rename_i hparent
            cases hnext
            rw [if_pos hparent]
          · rename_i hparent
            rw [if_neg hparent]
            split at hnext
            · cases hnext
              rw [isDirectoryAt_iff.mp hdir]
            · cases hnext

theorem not_isDirectoryAt_of_none (h : t.node? place = none) : ¬ t.isDirectoryAt place := by
  rw [isDirectoryAt_iff, h]
  simp

/-- All that is new are directories, in places where nothing was. -/
structure AddsDirectories (t t' : FileTree) : Prop where
  workingDirectory : t'.workingDirectory = t.workingDirectory
  nodes : ∀ q, t'.node? q = t.node? q ∨ t.node? q = none ∧ t'.node? q = some .directory

theorem AddsDirectories.refl (t : FileTree) : t.AddsDirectories t :=
  ⟨rfl, fun _ => .inl rfl⟩

theorem AddsDirectories.trans (h : t.AddsDirectories t') (h' : t'.AddsDirectories t'') :
    t.AddsDirectories t'' where
  workingDirectory := h'.workingDirectory.trans h.workingDirectory
  nodes := by
    intro q
    rcases h'.nodes q with hkept | ⟨hnone, hnew⟩
    · rw [hkept]
      exact h.nodes q
    · rcases h.nodes q with hkept | ⟨-, hnew'⟩
      · exact .inr ⟨hkept ▸ hnone, hnew⟩
      · rw [hnone] at hnew'
        cases hnew'

theorem AddsDirectories.insert (h : t.node? place = none) :
    t.AddsDirectories (t.insert place .directory) where
  workingDirectory := workingDirectory_insert _ _ _
  nodes := by
    intro q
    rw [node?_insert (not_isDirectoryAt_of_none h)]
    split
    · rename_i hq
      exact .inr ⟨hq ▸ h, rfl⟩
    · exact .inl rfl

theorem AddsDirectories.extends (h : t.AddsDirectories t') : t.Extends t' where
  workingDirectory := h.workingDirectory
  directories := by
    intro p hp
    rw [isDirectoryAt_iff] at hp ⊢
    rcases h.nodes p with hkept | ⟨-, hnew⟩
    · rw [hkept, hp]
    · exact hnew
  present := by
    intro p hp
    rcases h.nodes p with hkept | ⟨-, hnew⟩
    · rwa [hkept]
    · rw [hnew]
      rfl

theorem addsDirectories_createPieces (t : FileTree) (place : Location) (pieces : List Text) :
    t.AddsDirectories (t.createPieces place pieces).1 := by
  induction pieces generalizing t place with
  | nil => exact .refl t
  | cons piece pieces ih =>
      rw [createPieces]
      split
      · exact ih t place
      · split
        · exact ih t place.dropLast
        · split
          · exact ih t _
          · exact .refl t
          · rename_i hnone
            split
            · exact (AddsDirectories.insert hnone).trans (ih _ _)
            · exact .refl t

theorem extends_createPieces (t : FileTree) (place : Location) (pieces : List Text) :
    t.Extends (t.createPieces place pieces).1 :=
  (addsDirectories_createPieces t place pieces).extends

/-- When directories could be made, the first of them is there before the others are
made. -/
theorem exists_createPieces_cons {name : Text} {names : Location} (hname : IsName name)
    (hmade : (t.createPieces place (name :: names)).2) :
    ∃ t' : FileTree,
      t.createPieces place (name :: names) = t'.createPieces (place ++ [name]) names ∧
      t.Extends t' ∧ t'.isDirectoryAt (place ++ [name]) := by
  rw [createPieces_name hname] at hmade ⊢
  cases hnode : t.node? (place ++ [name]) with
  | some node =>
      rw [hnode] at hmade
      cases node with
      | directory => exact ⟨t, rfl, .refl t, isDirectoryAt_iff.mpr hnode⟩
      | file content => cases hmade
  | none =>
      rw [hnode] at hmade
      have hgood : isName name := by
        by_contra hbad
        simp [hbad] at hmade
      have hfree := not_isDirectoryAt_of_none hnode
      refine ⟨t.insert (place ++ [name]) .directory, by simp [hgood], .insert hfree _, ?_⟩
      rw [isDirectoryAt_iff, node?_insert hfree, if_pos rfl]

/-- Directories that have been made can be followed. -/
theorem foldlM_createPieces {names : Location} (hnames : ∀ name ∈ names, IsName name)
    (hplace : t.isDirectoryAt place) (hmade : (t.createPieces place names).2) :
    names.foldlM (t.createPieces place names).1.enter? place = some (place ++ names) ∧
      (t.createPieces place names).1.isDirectoryAt (place ++ names) := by
  induction names generalizing t place with
  | nil => simpa [createPieces] using hplace
  | cons name names ih =>
      rw [List.forall_mem_cons] at hnames
      obtain ⟨t', ht', hextends, hdir⟩ := exists_createPieces_cons hnames.1 hmade
      rw [ht'] at hmade ⊢
      obtain ⟨hfold, hlast⟩ := ih hnames.2 hdir hmade
      have hlater := extends_createPieces t' (place ++ [name]) names
      have hstart := hlater.directories _ (hextends.directories _ hplace)
      have hnext := isDirectoryAt_iff.mp (hlater.directories _ hdir)
      rw [List.foldlM_cons, enter?_name hstart hnames.1, hnext, List.append_cons place name names]
      exact ⟨hfold, hlast⟩

end

/-! ## Two trees -/

/-- Two trees look the same below a place of each. -/
def Mirrors (t₁ : FileTree) (place₁ : Location) (t₂ : FileTree) (place₂ : Location) : Prop :=
  ∀ q, t₁.node? (place₁ ++ q) = t₂.node? (place₂ ++ q)

section
variable {t₁ t₂ : FileTree} {place₁ place₂ : Location}

theorem Mirrors.isDirectoryAt (h : Mirrors t₁ place₁ t₂ place₂) (q : Location) :
    t₁.isDirectoryAt (place₁ ++ q) = t₂.isDirectoryAt (place₂ ++ q) := by
  rw [FileTree.isDirectoryAt, h q, FileTree.isDirectoryAt]

theorem Mirrors.insert (h : Mirrors t₁ place₁ t₂ place₂) {q : Location}
    (hq : ¬ t₁.isDirectoryAt (place₁ ++ q)) (node : Node) :
    Mirrors (t₁.insert (place₁ ++ q) node) place₁ (t₂.insert (place₂ ++ q) node) place₂ := by
  have hq' : ¬ t₂.isDirectoryAt (place₂ ++ q) := by rwa [← h.isDirectoryAt]
  intro r
  rw [node?_insert hq, node?_insert hq', h r]
  simp only [List.append_cancel_left_eq]

/-- The same directories can be made in both trees, and then they still look the same. -/
theorem Mirrors.createPieces (h : Mirrors t₁ place₁ t₂ place₂) (front : Location)
    {names : Location} (hnames : ∀ name ∈ names, IsName name) :
    (t₁.createPieces (place₁ ++ front) names).2 = (t₂.createPieces (place₂ ++ front) names).2 ∧
      Mirrors (t₁.createPieces (place₁ ++ front) names).1 place₁
        (t₂.createPieces (place₂ ++ front) names).1 place₂ := by
  induction names generalizing t₁ t₂ front with
  | nil => exact ⟨rfl, h⟩
  | cons name names ih =>
      rw [List.forall_mem_cons] at hnames
      have hnode : t₁.node? (place₁ ++ front ++ [name]) = t₂.node? (place₂ ++ front ++ [name]) := by
        rw [List.append_assoc, List.append_assoc]
        exact h _
      rw [createPieces_name hnames.1, createPieces_name hnames.1, hnode]
      split
      · rw [List.append_assoc, List.append_assoc]
        exact ih h _ hnames.2
      · exact ⟨rfl, h⟩
      · rename_i hnone
        split
        · rw [List.append_assoc, List.append_assoc]
          refine ih (h.insert ?_ _) _ hnames.2
          apply not_isDirectoryAt_of_none
          rw [← List.append_assoc, hnode, hnone]
        · exact ⟨rfl, h⟩

end

end FileTree
end ApiManual
