import ApiManual.Proofs.Path.Order
import ApiManual.Proofs.Site.Walk
import Mathlib

/-!
# Discovered sources

A run reads the files that its walk finds, each once and in the order of their paths.  All of them are read before anything is written, so the first
source that cannot be read ends the run with the tree as it was.
-/

namespace ApiManual
namespace Site

open ApiManual.Path

/-! ## The order of the sources -/

theorem dropRepeats_sublist (paths : List Text) : (dropRepeats paths).Sublist paths := by
  induction paths using dropRepeats.induct with
  | case1 a b rest heq ih =>
      rw [dropRepeats, if_pos heq]
      exact ih.trans ((List.sublist_cons_self b rest).cons_cons a)
  | case2 a b rest hne ih =>
      rw [dropRepeats, if_neg hne]
      exact ih.cons_cons a
  | case3 short hshort =>
      rw [dropRepeats]
      exact hshort

/-- Among sorted paths the same components stand side by side. -/
theorem pairwise_dropRepeats {paths : List Text}
    (h : paths.Pairwise fun a b => key a ≤ key b) :
    (dropRepeats paths).Pairwise fun a b => key a < key b := by
  induction paths using dropRepeats.induct with
  | case1 a b rest heq ih =>
      rw [dropRepeats, if_pos heq]
      exact ih (h.sublist ((List.sublist_cons_self b rest).cons_cons a))
  | case2 a b rest hne ih =>
      rw [dropRepeats, if_neg hne]
      obtain ⟨hhead, htail⟩ := List.pairwise_cons.mp h
      refine List.pairwise_cons.mpr ⟨?_, ih htail⟩
      intro q hq
      have hab : key a < key b :=
        lt_of_le_of_ne (hhead b List.mem_cons_self) (mt key_eq_key_iff.mp hne)
      rcases List.mem_cons.mp ((dropRepeats_sublist _).subset hq) with rfl | hmem
      · exact hab
      · exact hab.trans_le ((List.pairwise_cons.mp htail).1 q hmem)
  | case3 short hshort =>
      rw [dropRepeats]
      · cases short with
        | nil => exact List.Pairwise.nil
        | cons a rest =>
            cases rest with
            | nil => exact List.pairwise_singleton _ a
            | cons b rest => exact absurd rfl (hshort a b rest)
      · exact hshort

section
variable {w : Walk} {t : FileTree} {c : Config} {paths : List Text}

theorem discover_eq_ok_iff :
    discover w t c = .ok paths ↔
      t.isDirectory c.sourceRoot ∧ ∃ found : List Text,
        w.entries? t (c.pattern w) = some (found.map some) ∧
          dropRepeats ((found.filter t.isFile).mergeSort precedes) = paths := by
  unfold discover
  cases t.isDirectory c.sourceRoot
  · simp
  · cases w.entries? t (c.pattern w) with
    | none => simp
    | some entries =>
        simp only [Option.some_inj, ← mapM_id_eq_some_iff]
        cases entries.mapM id <;> simp

theorem pairwise_discover (h : discover w t c = .ok paths) :
    paths.Pairwise fun a b => key a < key b := by
  obtain ⟨-, found, -, rfl⟩ := discover_eq_ok_iff.mp h
  exact pairwise_dropRepeats (pairwise_mergeSort_precedes _)

theorem isFile_of_mem_discover (h : discover w t c = .ok paths) {path : Text}
    (hpath : path ∈ paths) : t.isFile path := by
  obtain ⟨-, found, -, rfl⟩ := discover_eq_ok_iff.mp h
  have hmem := (dropRepeats_sublist _).subset hpath
  rw [List.mem_mergeSort] at hmem
  exact (List.mem_filter.mp hmem).2

theorem steps_of_mem_discover (hbelow : StaysBelow w t c) (h : discover w t c = .ok paths)
    {path : Text} (hpath : path ∈ paths) : steps c.sourceRoot <+: steps path := by
  obtain ⟨-, found, hfound, rfl⟩ := discover_eq_ok_iff.mp h
  have hmem := (dropRepeats_sublist _).subset hpath
  rw [List.mem_mergeSort] at hmem
  exact hbelow _ hfound path (List.mem_map_of_mem (List.mem_filter.mp hmem).1)

/-! ## Sources that cannot be read -/

/-- A file that is no text, or whose text is no annotated source, with the failure it
causes. -/
inductive BadSource (t : FileTree) (path : Text) : Failure → Prop
  | unreadable {content : ByteArray} (hfile : t.get? path = some (.file content))
      (htext : String.fromUTF8? content = none) : BadSource t path (.unreadable path)
  | malformed {content : ByteArray} {text : String} {fault : DocComment.Fault}
      (hfile : t.get? path = some (.file content))
      (htext : String.fromUTF8? content = some text)
      (hfault : DocComment.readAt path text.toList = .error fault) :
      BadSource t path (.malformed path fault)

theorem readText?_of_file {path : Text} {content : ByteArray}
    (h : t.get? path = some (.file content)) :
    t.readText? path = (String.fromUTF8? content).map String.toList := by
  rw [FileTree.readText?, h]

theorem readSource_of_badSource {path : Text} {failure : Failure} (h : BadSource t path failure) :
    readSource t c path = .error failure := by
  cases h with
  | unreadable hfile htext =>
      rw [readSource, readText?_of_file hfile, htext]
      rfl
  | malformed hfile htext hfault =>
      rw [readSource, readText?_of_file hfile, htext]
      simp only [Option.map_some]
      rw [hfault]
      rfl

theorem exists_readSource (hbelow : StaysBelow w t c) (h : discover w t c = .ok paths)
    {path : Text} (hpath : path ∈ paths) (hgood : ¬ ∃ failure, BadSource t path failure) :
    ∃ s, readSource t c path = .ok s := by
  have hfile := isFile_of_mem_discover h hpath
  have hsteps := steps_of_mem_discover hbelow h hpath
  unfold FileTree.isFile at hfile
  split at hfile
  · rename_i content hnode
    cases htext : String.fromUTF8? content with
    | none => exact absurd ⟨_, .unreadable hnode htext⟩ hgood
    | some text =>
        cases hdoc : DocComment.readAt path text.toList with
        | error fault => exact absurd ⟨_, .malformed hnode htext hdoc⟩ hgood
        | ok doc =>
            rw [readSource, readText?_of_file hnode, htext]
            simp only [Option.map_some]
            obtain ⟨cs, hcs⟩ := hsteps
            rw [hdoc, relative?_of_steps hcs.symm]
            exact ⟨_, rfl⟩
  · cases hfile

/-- If any source is bad, the run ends with the failure of the first bad one, and nothing
has been written. -/
theorem generate_of_badSource (hbelow : StaysBelow w t c) (h : discover w t c = .ok paths)
    (hbad : ∃ path ∈ paths, ∃ failure, BadSource t path failure) :
    ∃ path ∈ paths, ∃ failure, BadSource t path failure ∧
      (∀ q ∈ paths, q ≠ path → (∃ f, BadSource t q f) → key path < key q) ∧
      generateWith w t c = (.error failure, t) := by
  classical
  obtain ⟨path, hfirst⟩ : ∃ path, paths.find? (∃ failure, BadSource t · failure) = some path := by
    rw [← Option.isSome_iff_exists, List.find?_isSome]
    simpa using hbad
  rw [List.find?_eq_some_iff_append] at hfirst
  obtain ⟨hpath, front, back, rfl, hfront⟩ := hfirst
  simp only [decide_eq_true_eq, Bool.not_eq_true', decide_eq_false_iff_not] at hpath hfront
  obtain ⟨failure, hfailure⟩ := hpath
  refine ⟨path, by simp, failure, hfailure, ?_, ?_⟩
  · intro q hq hne hqbad
    have hsorted := List.pairwise_append.mp (pairwise_discover h)
    rcases List.mem_append.mp hq with hin | hin
    · exact absurd hqbad (hfront q hin)
    · rcases List.mem_cons.mp hin with rfl | hin
      · exact absurd rfl hne
      · exact (List.pairwise_cons.mp hsorted.2.1).1 q hin
  · have hread : readSources w t c = .error failure := by
      rw [readSources, h, ok_bind]
      apply mapM_append_cons_error _ (readSource_of_badSource hfailure)
      intro q hq
      exact exists_readSource hbelow h (List.mem_append_left _ hq) (hfront q hq)
    rw [generateWith, hread]

end

/-- Two of the three sources are bad, and neither stands first. -/
def draftTree : FileTree where
  nodes := [
    (["lua".toList], .directory),
    (["lua".toList, "c.lua".toList], .file ⟨#[0xff]⟩),
    (["lua".toList, "b.lua".toList], .file "--- @bogus".toUTF8),
    (["lua".toList, "a.lua".toList], .file "--- Fine.".toUTF8)]

def draftSources : List Text :=
  ["lua/a.lua".toList, "lua/b.lua".toList, "lua/c.lua".toList]

theorem badSource_draftTree :
    BadSource draftTree "lua/b.lua".toList
      (.malformed "lua/b.lua".toList (.unknownTag 1 "bogus".toList)) := by
  have htext : String.fromUTF8? "--- @bogus".toUTF8 = some "--- @bogus" := by cbv
  refine .malformed ?_ htext ?_
  · cbv
  · cbv

theorem generate_draftTree :
    StaysBelow Glob.walk draftTree {} ∧ discover Glob.walk draftTree {} = .ok draftSources ∧
      (∃ path ∈ draftSources, ∃ failure, BadSource draftTree path failure) ∧
      ∃ path ∈ draftSources, ∃ failure, BadSource draftTree path failure ∧
        (∀ q ∈ draftSources, q ≠ path → (∃ f, BadSource draftTree q f) → key path < key q) ∧
        generateWith Glob.walk draftTree {} = (.error failure, draftTree) := by
  have hbelow : StaysBelow Glob.walk draftTree {} := staysBelow_glob (by decide) {}
  have hdiscover : discover Glob.walk draftTree {} = .ok draftSources := by cbv
  have hbad : ∃ path ∈ draftSources, ∃ failure, BadSource draftTree path failure :=
    ⟨_, by simp [draftSources], _, badSource_draftTree⟩
  exact ⟨hbelow, hdiscover, hbad, generate_of_badSource hbelow hdiscover hbad⟩

end Site
end ApiManual
