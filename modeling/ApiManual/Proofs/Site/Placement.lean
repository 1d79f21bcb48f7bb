import ApiManual.Proofs.Site.Discovery
import Mathlib.Data.List.Perm.Basic

/-!
# Sources by their places

What a run reads depends on the files below the source root alone: on the names that lead
to them from there and on their contents.  Neither the spelling of the root nor the order
in which a walk comes to the files has a say.
-/

namespace ApiManual
namespace Site

open ApiManual.Path

/-! ## The order of the places -/

/-- The key of the path that the names make. -/
def placeKey (names : Location) : List (List Nat) :=
  names.map fun name => (Component.normal name).key

theorem key_of_leadsBelow {t : FileTree} {root path : Text} {place names : Location}
    (h : LeadsBelow t root place path names) :
    key path = (steps root).map Component.key ++ placeKey names := by
  rw [key, h.components, List.map_append, List.map_map]
  rfl

theorem key_ofNames {names : Location} (h : ∀ name ∈ names, IsName name) :
    key (ofNames names) = placeKey names := by
  rw [key, components_ofNames h, List.map_map]
  rfl

theorem dropRepeats_of_pairwise {paths : List Text}
    (h : paths.Pairwise fun a b => components a ≠ components b) : dropRepeats paths = paths := by
  induction paths using dropRepeats.induct with
  | case1 a b rest heq ih => exact absurd heq ((List.pairwise_cons.mp h).1 b List.mem_cons_self)
  | case2 a b rest hne ih => rw [dropRepeats, if_neg hne, ih (List.pairwise_cons.mp h).2]
  | case3 short hshort => rw [dropRepeats]; exact hshort

section
variable {w : Walk} {t : FileTree} {c : Config} {place : Location}

/-- The sources come in the order of their places below the root. -/
theorem exists_discover (hroot : t.Reaches c.sourceRoot place) (h : FindsSources w t c place) :
    ∃ paths names, discover w t c = .ok paths ∧
      List.Forall₂ (LeadsBelow t c.sourceRoot place) paths names ∧
      names.Pairwise (fun a b => placeKey a < placeKey b) ∧
      ∀ q, q ∈ names ↔ IsSourcePlace c.extension q ∧ (t.filesBelow place q).isSome := by
  obtain ⟨found, listed, hentries, hleads, hnodup, hmem⟩ := h
  obtain ⟨names, hsorted, hperm⟩ :=
    List.perm_comp_forall₂ (List.mergeSort_perm (found.filter t.isFile) precedes) hleads
  have hdistinct : ((found.filter t.isFile).mergeSort precedes).Pairwise
      fun a b => components a ≠ components b := by
    apply pairwise_of_forall₂ _ hsorted.flip (hperm.nodup_iff.mpr hnodup)
    intro a b path path' ha hb hab heq
    rw [ha.components, hb.components] at heq
    exact hab (List.map_injective_iff.mpr (fun _ _ => Component.normal.inj)
      (List.append_cancel_left heq))
  have hdiscover := discover_eq_ok_iff.mpr ⟨hroot.isDirectory_path, found, hentries, rfl⟩
  have hkeys := pairwise_discover hdiscover
  rw [dropRepeats_of_pairwise hdistinct] at hdiscover hkeys
  refine ⟨_, names, hdiscover, hsorted, ?_, ?_⟩
  · apply pairwise_of_forall₂ _ hsorted hkeys
    intro a b names names' ha hb hab
    rwa [key_of_leadsBelow ha, key_of_leadsBelow hb, append_lt_append_iff] at hab
  · intro q
    rw [hperm.mem_iff, hmem]

/-! ## What the sources are -/

/-- The source that a file with this content makes at a place below the root. -/
def sourceOf? (names : Location) (content : ByteArray) : Option Source :=
  (String.fromUTF8? content).bind fun text =>
    let name := (splitName (names.getLastD [])).1
    (DocComment.readSource name text.toList).toOption.map fun doc => ⟨ofNames names, doc⟩

theorem steps_of_leadsBelow {root path : Text} {names : Location}
    (h : LeadsBelow t root place path names) : steps path = steps root ++ names.map .normal := by
  have hroot : .current ∉ steps root := by simp [steps]
  rw [steps, h.components, List.filter_append]
  congr 1
  · apply List.filter_eq_self.mpr
    intro c hc
    have hne : c ≠ .current := by
      rintro rfl
      exact hroot hc
    simpa using hne
  · apply List.filter_eq_self.mpr
    intro c hc
    obtain ⟨name, -, rfl⟩ := List.mem_map.mp hc
    rfl

theorem ofComponents_normal (names : Location) :
    ofComponents (names.map .normal) = ofNames names := by
  have htext : (names.map .normal).map Component.text = names := by
    rw [List.map_map]
    exact List.map_id _
  cases names with
  | nil => rfl
  | cons name names =>
      rw [List.map_cons] at htext ⊢
      simp only [ofComponents, htext]
      rfl

theorem relative?_of_leadsBelow {root path : Text} {names : Location}
    (h : LeadsBelow t root place path names) : relative? path root = some (ofNames names) := by
  rw [relative?_of_steps (steps_of_leadsBelow h), ofComponents_normal]

theorem fileStem?_of_leadsBelow {root path : Text} {names : Location} (hne : names ≠ [])
    (h : LeadsBelow t root place path names) :
    fileStem? path = some (splitName (names.getLastD [])).1 := by
  obtain ⟨front, name, rfl⟩ := List.eq_nil_or_concat' names |>.resolve_left hne
  have hlast : (components path).getLast? = some (.normal name) := by
    rw [h.components, List.map_append, ← List.append_assoc]
    exact List.getLast?_concat
  rw [fileStem?, fileName?, hlast]
  simp

/-- What reading a source gives depends on its place below the root and its content. -/
theorem readSource_of_leadsBelow {path : Text} {names : Location} {content : ByteArray}
    (hne : names ≠ []) (h : LeadsBelow t c.sourceRoot place path names)
    (hfile : t.filesBelow place names = some content) :
    (readSource t c path).toOption = sourceOf? names content := by
  have hget : t.get? path = some (.file content) := by
    rw [FileTree.get?, h.leads, Option.bind_some, FileTree.filesBelow_eq_some_iff.mp hfile]
  rw [readSource, readText?_of_file hget, sourceOf?]
  cases htext : String.fromUTF8? content with
  | none => rfl
  | some text =>
      simp only [Option.map_some, DocComment.readAt, fileStem?_of_leadsBelow hne h,
        Option.getD_some, relative?_of_leadsBelow h, Option.bind_some]
      cases DocComment.readSource (splitName (names.getLastD [])).1 text.toList <;> rfl

theorem ne_nil_of_isSourcePlace {extension : Text} {names : Location}
    (h : IsSourcePlace extension names) : names ≠ [] := by
  rintro rfl
  obtain ⟨name, hname, -⟩ := h
  cases hname

/-- The sources of a run, read off the files below the root in the order of their places. -/
theorem exists_readSources (hroot : t.Reaches c.sourceRoot place) (h : FindsSources w t c place) :
    ∃ names : List Location, names.Pairwise (fun a b => placeKey a < placeKey b) ∧
      (∀ q, q ∈ names ↔ IsSourcePlace c.extension q ∧ (t.filesBelow place q).isSome) ∧
      (readSources w t c).toOption =
        names.mapM fun q => (t.filesBelow place q).bind (sourceOf? q) := by
  obtain ⟨paths, names, hdiscover, hleads, hsorted, hmem⟩ := exists_discover hroot h
  refine ⟨names, hsorted, hmem, ?_⟩
  rw [readSources, hdiscover, ok_bind]
  have hfiles : ∀ q ∈ names, q ≠ [] ∧ (t.filesBelow place q).isSome := fun q hq =>
    ⟨ne_nil_of_isSourcePlace ((hmem q).mp hq).1, ((hmem q).mp hq).2⟩
  apply toOption_mapM
  apply ((List.forall₂_and_left names paths).mpr ⟨hfiles, hleads.flip⟩).flip.imp
  rintro path q ⟨⟨hne, hsome⟩, hpath⟩
  obtain ⟨content, hcontent⟩ := Option.isSome_iff_exists.mp hsome
  rw [readSource_of_leadsBelow hne hpath hcontent, hcontent, Option.bind_some]

end

end Site
end ApiManual
