import ApiManual.Proofs.FileTree.Change

/-!
# Destinations

Where a path leads can be told from the path and the working directory.  Whatever a tree
holds, following the path or making its directories ends at this place or fails.
-/

namespace ApiManual
namespace FileTree

open ApiManual.Path

/-- The place one piece further on, whatever is there. -/
def lead (place : Location) (piece : Text) : Location :=
  if piece = [] || piece = ['.'] then place
  else if piece = ['.', '.'] then place.dropLast
  else place ++ [piece]

/-- The place that a path would lead to. -/
def destination (t : FileTree) (path : Text) : Location :=
  (path.splitOn '/').foldl lead (t.startOf path)

section
variable {t t' : FileTree} {place q : Location}

theorem lead_of_isName {name : Text} (h : IsName name) (place : Location) :
    lead place name = place ++ [name] := by
  obtain ⟨hempty, hdot, hdots, -⟩ := isName_iff.mp h
  simp [lead, hempty, hdot, hdots]

theorem foldl_lead_names {names : Location} (h : ∀ name ∈ names, IsName name)
    (place : Location) : names.foldl lead place = place ++ names := by
  induction names generalizing place with
  | nil => simp
  | cons name names ih =>
      rw [List.forall_mem_cons] at h
      rw [List.foldl_cons, lead_of_isName h.1, ih h.2, ← List.append_cons]

theorem eq_lead_of_enter? {piece : Text} (h : t.enter? place piece = some q) :
    q = lead place piece := by
  unfold enter? at h
  unfold lead
  split at h
  · cases h
  · split at h
    · rename_i hcurrent
      rw [if_pos hcurrent]
      exact (Option.some.inj h).symm
    · rename_i hcurrent
      rw [if_neg hcurrent]
      split at h
      · rename_i hparent
        rw [if_pos hparent]
        exact (Option.some.inj h).symm
      · rename_i hparent
        rw [if_neg hparent]
        split at h
        · exact (Option.some.inj h).symm
        · cases h

theorem eq_foldl_lead_of_foldlM {pieces : List Text}
    (h : pieces.foldlM t.enter? place = some q) : q = pieces.foldl lead place := by
  induction pieces generalizing place with
  | nil => exact (Option.some.inj h).symm
  | cons piece pieces ih =>
      rw [List.foldlM_cons] at h
      obtain ⟨next, hnext, hrest⟩ := Option.bind_eq_some_iff.mp h
      rw [List.foldl_cons, ← eq_lead_of_enter? hnext]
      exact ih hrest

theorem startOf_eq (h : t'.workingDirectory = t.workingDirectory) (path : Text) :
    t'.startOf path = t.startOf path := by
  rw [startOf, startOf, h]

theorem Extends.destination_eq (h : t.Extends t') (path : Text) :
    t'.destination path = t.destination path := by
  rw [destination, destination, startOf_eq h.workingDirectory]

/-! ## Joined paths -/

/-- A slash at the end of a base leads nowhere else. -/
theorem foldl_lead_basePieces (base : Text) (place : Location) :
    (base.splitOn '/').foldl lead place = (basePieces base).foldl lead place := by
  rw [splitOn_eq_basePieces, List.foldl_append]
  split <;> rfl

theorem destination_join (base : Text) {path : Text} (hpath : isAbsolute path = false) :
    t.destination (join base path) = (path.splitOn '/').foldl lead (t.destination base) := by
  by_cases hbase : base = []
  · have hjoin : join base path = path := by simp [hbase, join, hpath]
    rw [hjoin, destination, startOf, hpath, hbase]
    rfl
  · rw [destination, splitOn_join hbase hpath, startOf_join hbase hpath, List.foldl_append,
      ← foldl_lead_basePieces, destination]

/-- Names are followed from where the base leads. -/
theorem destination_join_ofNames (base : Text) {names : Location} (hne : names ≠ [])
    (hnames : ∀ name ∈ names, IsName name) :
    t.destination (join base (ofNames names)) = t.destination base ++ names := by
  rw [destination_join base (isAbsolute_ofNames hnames),
    splitOn_ofNames hne fun name hname => (hnames name hname).noSlash, foldl_lead_names hnames]

/-! ## Making directories again -/

/-- A piece that asks for no directory, or for one that is there. -/
inductive Passes (t : FileTree) (place : Location) (piece : Text) : Prop
  | current (h : piece = [] || piece = ['.'])
  | parent (h : piece = ['.', '.'])
  | there (h : t.isDirectoryAt (place ++ [piece]))

theorem Extends.passes (h : t.Extends t') {piece : Text} (hpiece : t.Passes place piece) :
    t'.Passes place piece := by
  cases hpiece with
  | current hcurrent => exact .current hcurrent
  | parent hparent => exact .parent hparent
  | there hthere => exact .there (h.directories _ hthere)

theorem Passes.createPieces_eq {piece : Text} (h : t.Passes place piece) (pieces : List Text) :
    t.createPieces place (piece :: pieces) = t.createPieces (lead place piece) pieces := by
  rw [createPieces, lead]
  split
  · rfl
  · rename_i hcurrent
    split
    · rfl
    · rename_i hparent
      cases h with
      | current h => exact absurd h hcurrent
      | parent h => exact absurd h hparent
      | there hthere => rw [isDirectoryAt_iff.mp hthere]

/-- Where the directories could be made, each piece passes before the others are followed. -/
theorem exists_passes {piece : Text} {pieces : List Text}
    (hmade : (t.createPieces place (piece :: pieces)).2) :
    ∃ u : FileTree, u.Passes place piece ∧
      t.createPieces place (piece :: pieces) = u.createPieces (lead place piece) pieces := by
  rw [createPieces] at hmade ⊢
  rw [lead]
  split at hmade
  · rename_i hcurrent
    rw [if_pos hcurrent, if_pos hcurrent]
    exact ⟨t, .current hcurrent, rfl⟩
  · rename_i hcurrent
    rw [if_neg hcurrent, if_neg hcurrent]
    split at hmade
    · rename_i hparent
      rw [if_pos hparent, if_pos hparent]
      exact ⟨t, .parent hparent, rfl⟩
    · rename_i hparent
      rw [if_neg hparent, if_neg hparent]
      split at hmade
      · rename_i hnode
        exact ⟨t, .there (isDirectoryAt_iff.mpr hnode), rfl⟩
      · cases hmade
      · rename_i hnode
        split at hmade
        · rename_i hname
          simp only [if_pos hname]
          refine ⟨_, .there ?_, rfl⟩
          rw [isDirectoryAt_iff, node?_insert (not_isDirectoryAt_of_none hnode), if_pos rfl]
        · cases hmade

/-- Directories that have been made are there, so making them again does nothing. -/
theorem createPieces_again {w : FileTree} {pieces : List Text}
    (hmade : (t.createPieces place pieces).2)
    (hw : (t.createPieces place pieces).1.Extends w) :
    w.createPieces place pieces = (w, true) := by
  induction pieces generalizing t place with
  | nil => rfl
  | cons piece pieces ih =>
      obtain ⟨u, hu, hpieces⟩ := exists_passes hmade
      rw [hpieces] at hmade hw
      have hpasses := ((extends_createPieces u _ pieces).trans hw).passes hu
      rw [hpasses.createPieces_eq]
      exact ih hmade hw

end

end FileTree
end ApiManual
