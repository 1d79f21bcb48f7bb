import ApiManual.Proofs.Glob.Listing
import ApiManual.Proofs.Glob.Walk
import ApiManual.Proofs.Path.Relative
import ApiManual.Site.Program

/-!
# What runs ask of a walk

A run is given a walk and knows of it what is stated here: that it stays below the source
root, or that it finds the files whose names end in a dot and the extension, each of them
once.  The walk of `Glob` stays below every root, and finds the sources in every file tree
of short paths.
-/

namespace ApiManual
namespace Site

open ApiManual.Path

/-- The walk yields nothing but paths that begin like the source root. -/
def StaysBelow (w : Walk) (t : FileTree) (c : Config) : Prop :=
  ∀ entries, w.entries? t (c.pattern w) = some entries →
    ∀ path, some path ∈ entries → steps c.sourceRoot <+: steps path

/-- The last of the names ends in a dot and the extension. -/
def IsSourcePlace (extension : Text) (names : Location) : Prop :=
  ∃ name ∈ names.getLast?, '.' :: extension <:+ name

/-- A path goes from the root to a place below it, with no `.` in front. -/
structure LeadsBelow (t : FileTree) (root : Text) (place : Location) (path : Text)
    (names : Location) : Prop where
  components : components path = steps root ++ names.map .normal
  leads : t.locate? path = some (place ++ names)

/-- The walk comes to the files below the source root whose names end in a dot and the
extension, and to each of them once.  It may come to directories besides. -/
def FindsSources (w : Walk) (t : FileTree) (c : Config) (place : Location) : Prop :=
  ∃ (found : List Text) (names : List Location),
    w.entries? t (c.pattern w) = some (found.map some) ∧
    List.Forall₂ (LeadsBelow t c.sourceRoot place) (found.filter t.isFile) names ∧ names.Nodup ∧
    ∀ q, q ∈ names ↔ IsSourcePlace c.extension q ∧ (t.filesBelow place q).isSome

/-- The walk finds the sources below the source root, wherever that is. -/
def WalkFinds (w : Walk) (t : FileTree) (c : Config) : Prop :=
  ∀ place, t.Reaches c.sourceRoot place → FindsSources w t c place

theorem isSourcePlace_iff {extension : Text} {names : Location} :
    IsSourcePlace extension names ↔ names ≠ [] ∧ '.' :: extension <:+ names.getLastD [] := by
  unfold IsSourcePlace
  rcases List.eq_nil_or_concat' names with rfl | ⟨front, name, rfl⟩
  · simp
  · simp

/-! ## The walk of `Glob` -/

section
variable {t : FileTree} {c : Config} {place : Location}

theorem entries?_glob {text : Text} {pattern : Glob.PathPattern} {found : List Text}
    (hpattern : Glob.PathPattern.ofText? text = some pattern)
    (hwalk : Glob.walk? t pattern = some found) :
    Glob.walk.entries? t text = some (found.map some) := by
  simp only [Glob.walk, hpattern, Option.map_some, hwalk]

theorem exists_of_entries?_glob {text path : Text} {entries : List (Option Text)}
    (h : Glob.walk.entries? t text = some entries) (hpath : some path ∈ entries) :
    ∃ pattern found, Glob.PathPattern.ofText? text = some pattern ∧
      Glob.walk? t pattern = some found ∧ path ∈ found := by
  obtain ⟨pattern, hpattern, heq⟩ := Option.map_eq_some_iff.mp h
  cases hfound : Glob.walk? t pattern with
  | none => simp [← heq, hfound] at hpath
  | some found =>
      have hmem : path ∈ found := by simpa [← heq, hfound] using hpath
      exact ⟨pattern, found, hpattern, hfound, hmem⟩

theorem staysBelow_glob (ht : t.Named) (c : Config) : StaysBelow Glob.walk t c := by
  intro entries hentries path hpath
  by_cases hroot : c.sourceRoot = []
  · rw [hroot]
    exact List.nil_prefix
  · obtain ⟨pattern, found, hpattern, hfound, hmem⟩ := exists_of_entries?_glob hentries hpath
    exact Glob.steps_walk? ht hroot hpattern hfound path hmem

theorem isFile_of_locate? {path : Text} {names : Location}
    (h : t.locate? path = some (place ++ names)) :
    t.isFile path = (t.filesBelow place names).isSome := by
  rw [FileTree.isFile, FileTree.get?, h, Option.bind_some, FileTree.filesBelow]
  cases t.node? (place ++ names) with
  | none => rfl
  | some node => cases node <;> rfl

theorem mem_sources_below_iff (ht : t.WellFormed) {extension : Text} {q : Location} :
    q ∈ ((t.below place).filter fun names => '.' :: extension <:+ names.getLastD []).filter
        (fun names => (t.filesBelow place names).isSome) ↔
      IsSourcePlace extension q ∧ (t.filesBelow place q).isSome := by
  simp only [List.mem_filter, decide_eq_true_eq, isSourcePlace_iff, ht.mem_below_iff]
  constructor
  · rintro ⟨⟨⟨hne, -⟩, hends⟩, hfile⟩
    exact ⟨⟨hne, hends⟩, hfile⟩
  · rintro ⟨⟨hne, hends⟩, hfile⟩
    obtain ⟨content, hcontent⟩ := Option.isSome_iff_exists.mp hfile
    have hsome : (t.node? (place ++ q)).isSome := by
      rw [FileTree.filesBelow_eq_some_iff.mp hcontent]
      rfl
    exact ⟨⟨⟨hne, hsome⟩, hends⟩, hfile⟩

/-- The sources are found below any root that can be followed, as long as no path is too
long. -/
theorem findsSources_glob (ht : t.WellFormed) (hroot : t.Reaches c.sourceRoot place)
    (hfollowed : Glob.IsFollowed c.sourceRoot)
    (hspecial : c.extension.any Glob.isSpecialChar = false) (hslash : '/' ∉ c.extension)
    (hshort : ∀ names ∈ t.below place, FileTree.isPath (c.sourceRoot ++ '/' :: ofNames names)) :
    FindsSources Glob.walk t c place := by
  obtain ⟨pattern, path, hpattern, hpath, hseen, hlength, hwalk⟩ :=
    Glob.exists_walk? ht hroot hfollowed hspecial hslash hshort
  have hleads : ∀ names ∈ t.below place,
      LeadsBelow t c.sourceRoot place (Glob.childPath path (ofNames names)) names := by
    intro names hnames
    obtain ⟨hne, hsome⟩ := ht.mem_below_iff.mp hnames
    refine ⟨?_, Glob.locate?_childPath ht hpath hne hsome
      (Glob.isPath_childPath hlength (hshort names hnames))⟩
    rw [Glob.components_childPath hpath.ne_nil (ht.named.isName_of_mem_below hnames), hseen]
  let listed := (t.below place).filter fun names => '.' :: c.extension <:+ names.getLastD []
  have hlisted : ∀ names ∈ listed, names ∈ t.below place :=
    fun _ hmem => (List.mem_filter.mp hmem).1
  have hfiles : (listed.map fun names => Glob.childPath path (ofNames names)).filter t.isFile =
      (listed.filter fun names => (t.filesBelow place names).isSome).map
        fun names => Glob.childPath path (ofNames names) := by
    rw [List.filter_map]
    congr 1
    apply List.filter_congr
    exact fun names hmem => isFile_of_locate? (hleads names (hlisted names hmem)).leads
  refine ⟨_, listed.filter fun names => (t.filesBelow place names).isSome,
    entries?_glob hpattern hwalk, ?_, (ht.nodup_below.filter _).filter _, ?_⟩
  · rw [hfiles, List.forall₂_map_left_iff, List.forall₂_same]
    exact fun names hmem => hleads names (hlisted names (List.mem_filter.mp hmem).1)
  · exact fun _ => mem_sources_below_iff ht

theorem walkFinds_glob (ht : t.WellFormed) (hroot : t.Reaches c.sourceRoot place)
    (hfollowed : Glob.IsFollowed c.sourceRoot)
    (hspecial : c.extension.any Glob.isSpecialChar = false) (hslash : '/' ∉ c.extension)
    (hshort : ∀ names ∈ t.below place, FileTree.isPath (c.sourceRoot ++ '/' :: ofNames names)) :
    WalkFinds Glob.walk t c := by
  intro place' hroot'
  rw [← hroot.place_eq hroot']
  exact findsSources_glob ht hroot hfollowed hspecial hslash hshort

end

end Site
end ApiManual
