import ApiManual.Proofs.FileTree
import ApiManual.Proofs.Glob.Root

/-!
# Walks below an escaped root

A walk whose pattern begins with an escaped root first follows the root, whatever
characters its path is made of, and stays below it from there on.
-/

namespace ApiManual
namespace Glob

open ApiManual.Path

/-! ## A walk goes down only -/

theorem steps_of_isCurrent {path : Text} (h : isCurrent path) : steps path = [] := by
  have hcomponents : components path = [.current] := by simpa [isCurrent] using h
  rw [steps, hcomponents]
  rfl

theorem steps_childPath (path : Text) {name : Text} (hname : isAbsolute name = false) :
    steps (childPath path name) = steps path ++ inner name := by
  unfold childPath
  split
  · rename_i hcurrent
    rw [steps_of_isCurrent hcurrent, steps_of_relative hname, List.nil_append]
  · exact steps_join path hname

/-- The pattern leads to no absolute path by itself. -/
def Pattern.IsRelative (p : Pattern) : Prop :=
  ∀ name, p.literal? = some name → isAbsolute name = false

section
variable {t : FileTree}

theorem steps_entry (ht : t.Named) {place : Location} (path : Text) {names : Location}
    (h : names ∈ t.below place) : steps path <+: steps (entry t path place names).path := by
  have hjoin : Text.join ['/'] names = ofNames names := rfl
  rw [entry, hjoin, steps_childPath path (isAbsolute_ofNames (ht.isName_of_mem_below h))]
  exact List.prefix_append _ _

theorem steps_next? (ht : t.Named) {p : Pattern} (hp : p.IsRelative) {spot : Spot}
    {spots : List Spot} (h : next? t p spot = some spots) :
    ∀ s ∈ spots, steps spot.path <+: steps s.path := by
  intro s hs
  unfold next? at h
  split at h
  · rename_i name hliteral
    cases h
    rw [List.mem_ite_nil_right, List.mem_singleton] at hs
    rw [hs.2]
    exact ⟨_, (steps_childPath spot.path (hp name hliteral)).symm⟩
  · split at h
    · obtain ⟨entries, hentries, h⟩ := Option.bind_eq_some_iff.mp h
      cases h
      rcases List.mem_append.mp hs with hspecial | hentry
      · obtain ⟨name, hname, rfl⟩ := List.mem_map.mp hspecial
        have hrelative : isAbsolute name = false := by
          unfold specialNames at hname
          split at hname
          · have hmem := (List.mem_filter.mp hname).1
            simp only [List.mem_cons, List.not_mem_nil, or_false] at hmem
            rcases hmem with rfl | rfl <;> rfl
          · cases hname
        exact ⟨_, (steps_join spot.path hrelative).symm⟩
      · obtain ⟨⟨name, found⟩, hmem, rfl⟩ := List.mem_map.mp hentry
        have hlisted := (List.mem_filter.mp hmem).1
        obtain ⟨place, -, h⟩ := Option.bind_eq_some_iff.mp hentries
        cases h
        obtain ⟨child, hchild, heq⟩ := List.mem_map.mp hlisted
        cases heq
        exact steps_entry ht spot.path (FileTree.mem_children_iff.mp hchild)
    · cases h
      cases hs

theorem steps_below? (ht : t.Named) {spot : Spot} {entries : List (Text × Spot)}
    (h : below? t spot = some entries) : ∀ e ∈ entries, steps spot.path <+: steps e.2.path := by
  intro e he
  unfold below? at h
  split at h
  · obtain ⟨place, -, h⟩ := Option.bind_eq_some_iff.mp h
    simp only at h
    split at h
    · cases h
      obtain ⟨names, hnames, rfl⟩ := List.mem_map.mp he
      exact steps_entry ht spot.path hnames
    · cases h
  · cases h
    cases he

/-- Whatever patterns find from a spot on is below the spot. -/
theorem steps_expand? (ht : t.Named) (directoriesOnly : Bool) {ps : List Pattern}
    (hps : ∀ p ∈ ps, p.IsRelative) {spot : Spot} {found : List Text}
    (h : expand? t directoriesOnly ps spot = some found) :
    ∀ path ∈ found, steps spot.path <+: steps path := by
  intro path hpath
  induction ps, spot using expand?.induct generalizing found with
  | case1 spot =>
      cases h
      split at hpath
      · cases hpath
      · rw [List.mem_singleton.mp hpath]
  | case2 spot =>
      obtain ⟨entries, hentries, h⟩ := Option.bind_eq_some_iff.mp h
      cases h
      obtain ⟨e, he, rfl⟩ := List.mem_map.mp hpath
      exact steps_below? ht hentries e (List.mem_filter.mp he).1
  | case3 p rest spot ih =>
      obtain ⟨entries, hentries, h⟩ := Option.bind_eq_some_iff.mp h
      obtain ⟨lists, hlists, h⟩ := Option.bind_eq_some_iff.mp h
      cases h
      obtain ⟨e, he, bs, hbs, hmem⟩ := exists_of_mem_flatten hlists hpath
      have hdown := steps_below? ht hentries e (List.mem_filter.mp he).1
      have hrest : ∀ p ∈ rest, p.IsRelative :=
        fun q hq => hps q (List.mem_cons_of_mem _ (List.mem_cons_of_mem _ hq))
      exact hdown.trans (ih e hrest hbs hmem)
  | case4 p rest spot hone hmore ih =>
      rw [expand?] at h
      · obtain ⟨spots, hspots, h⟩ := Option.bind_eq_some_iff.mp h
        obtain ⟨lists, hlists, h⟩ := Option.bind_eq_some_iff.mp h
        cases h
        obtain ⟨s, hs, bs, hbs, hmem⟩ := exists_of_mem_flatten hlists hpath
        have hdown := steps_next? ht (hps p List.mem_cons_self) hspots s hs
        have hrest : ∀ p ∈ rest, p.IsRelative := fun q hq => hps q (List.mem_cons_of_mem _ hq)
        exact hdown.trans (ih s hrest hbs hmem)
      · exact hone
      · exact hmore

/-! ## Following a root -/

theorem expand?_ofName (directoriesOnly : Bool) (name : Text) (rest : List Pattern)
    (spot : Spot) :
    expand? t directoriesOnly (.ofName name :: rest) spot =
      (do
        let found ← (← next? t (.ofName name) spot).mapM (expand? t directoriesOnly rest)
        return found.flatten) := by
  cases rest <;> rfl

theorem path_entry_name (path : Text) (place : Location) (name : Text) :
    (entry t path place [name]).path = childPath path name := by
  rw [entry, Text.join_singleton]

theorem steps_next?_ofName {name : Text} (hname : '/' ∉ name) {spot : Spot} {spots : List Spot}
    (h : next? t (.ofName name) spot = some spots) :
    ∀ s ∈ spots, steps s.path = steps spot.path ++ inner name := by
  have hrelative := isAbsolute_of_noSlash hname
  intro s hs
  unfold next? at h
  rw [Pattern.literal?_ofName] at h
  split at h
  · rename_i literal hliteral
    split at hliteral
    · cases hliteral
    · cases hliteral
      cases h
      rw [List.mem_ite_nil_right, List.mem_singleton] at hs
      rw [hs.2]
      exact steps_childPath spot.path hrelative
  · split at h
    · obtain ⟨entries, hentries, h⟩ := Option.bind_eq_some_iff.mp h
      cases h
      rcases List.mem_append.mp hs with hspecial | hentry
      · obtain ⟨special, hmem, rfl⟩ := List.mem_map.mp hspecial
        have haccepted : special = name := by
          unfold specialNames at hmem
          split at hmem
          · have haccepts := (List.mem_filter.mp hmem).2
            simpa [Pattern.ofName_accepts] using haccepts
          · cases hmem
        rw [haccepted]
        exact steps_join spot.path hrelative
      · obtain ⟨⟨listed, found⟩, hmem, rfl⟩ := List.mem_map.mp hentry
        obtain ⟨hlisted, haccepts⟩ := List.mem_filter.mp hmem
        have haccepted : listed = name := by simpa [Pattern.ofName_accepts] using haccepts
        obtain ⟨place, -, h⟩ := Option.bind_eq_some_iff.mp hentries
        cases h
        obtain ⟨child, -, heq⟩ := List.mem_map.mp hlisted
        cases heq
        rw [haccepted, path_entry_name]
        exact steps_childPath spot.path hrelative
    · cases h
      cases hs

/-- A walk that begins with the names of a root comes to what the root leads to. -/
theorem steps_expand?_names (ht : t.Named) (directoriesOnly : Bool) {names : List Text}
    (hnames : ∀ name ∈ names, '/' ∉ name) {ps : List Pattern} (hps : ∀ p ∈ ps, p.IsRelative)
    {spot : Spot} {found : List Text}
    (h : expand? t directoriesOnly (names.map .ofName ++ ps) spot = some found) :
    ∀ path ∈ found, steps spot.path ++ names.filterMap pieceComponent? <+: steps path := by
  intro path hpath
  induction names generalizing spot found with
  | nil =>
      rw [List.filterMap_nil, List.append_nil]
      exact steps_expand? ht directoriesOnly hps h path hpath
  | cons name names ih =>
      rw [List.forall_mem_cons] at hnames
      rw [List.map_cons, List.cons_append, expand?_ofName] at h
      obtain ⟨spots, hspots, h⟩ := Option.bind_eq_some_iff.mp h
      obtain ⟨lists, hlists, h⟩ := Option.bind_eq_some_iff.mp h
      cases h
      obtain ⟨s, hs, bs, hbs, hmem⟩ := exists_of_mem_flatten hlists hpath
      have hbelow := ih hnames.2 hbs hmem
      rw [steps_next?_ofName hnames.1 hspots s hs, inner_of_noSlash hnames.1] at hbelow
      rw [List.filterMap_cons]
      cases hname : pieceComponent? name with
      | none => simpa [hname] using hbelow
      | some c => simpa [hname] using hbelow

theorem isRelative_of_ofText? {piece : Text} (hpiece : '/' ∉ piece) {p : Pattern}
    (hp : Pattern.ofText? piece = some p) : p.IsRelative := by
  intro name hliteral
  exact isAbsolute_of_noSlash fun hmem => hpiece (mem_of_mem_literal? hp hliteral hmem)

theorem noSlash_of_mem_pieces {s piece : Text} (h : piece ∈ pieces s) : '/' ∉ piece := by
  have hsplit : piece ∈ s.splitOn '/' := by
    unfold pieces at h
    simp only at h
    split at h
    · exact List.dropLast_subset _ h
    · exact h
  exact noSlash_of_mem_splitOn hsplit

theorem steps_root {root : Text} (hroot : root ≠ []) :
    steps (if isAbsolute root then ['/'] else ['.']) ++ (rootNames root).filterMap pieceComponent? =
      steps root := by
  by_cases habsolute : isAbsolute root
  · obtain ⟨c, rest, rfl⟩ := List.exists_cons_of_ne_nil hroot
    have hc : c = '/' := by simpa [isAbsolute] using habsolute
    subst hc
    have hinner : inner ('/' :: rest) = inner rest := inner_slash [] rest
    rw [steps_eq ('/' :: rest), if_pos habsolute, if_pos habsolute, hinner]
    rfl
  · rw [steps_eq root, rootNames, if_neg habsolute, if_neg habsolute, if_neg habsolute]
    rfl

/-- All that a walk finds below an escaped root is below the root. -/
theorem steps_walk? (ht : t.Named) {root ext : Text} (hroot : root ≠ [])
    {pattern : PathPattern}
    (hpattern : PathPattern.ofText? (escape root ++ "/**/*.".toList ++ ext) = some pattern)
    {found : List Text} (h : walk? t pattern = some found) :
    ∀ path ∈ found, steps root <+: steps path := by
  rw [ofText?_below_root hroot] at hpattern
  obtain ⟨rest, hrest, rfl⟩ := Option.map_eq_some_iff.mp hpattern
  have hnames : ∀ name ∈ rootNames root, '/' ∉ name := fun _ hname => noSlash_of_mem_splitOn hname
  have hrelative : ∀ p ∈ mergeAnyDepth (.anyDepth :: rest), p.IsRelative := by
    intro p hp
    rcases List.mem_cons.mp (mem_of_mem_mergeAnyDepth hp) with rfl | hmem
    · intro name hname
      cases hname
    · obtain ⟨piece, hpiece, hp⟩ := exists_of_mem_mapM hrest hmem
      exact isRelative_of_ofText? (noSlash_of_mem_pieces hpiece) hp
  unfold walk? at h
  simp only [mergeAnyDepth_names] at h
  intro path hpath
  have hbelow := steps_expand?_names ht _ hnames hrelative h path hpath
  rw [Spot.at, steps_root hroot] at hbelow
  exact hbelow

end

end Glob
end ApiManual
