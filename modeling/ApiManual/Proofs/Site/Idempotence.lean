import ApiManual.Proofs.Site.Run

/-!
# Runs on their own output

No page has the extension of a source, so a run finds the sources of the run before and
writes the same pages to the same places.  This holds wherever the output root lies, and
also where several sources have one page.
-/

namespace ApiManual
namespace Site

open ApiManual.Path ApiManual.FileTree

/-! ## Sources and pages -/

/-- A name that ends like a page does not end like a source. -/
theorem eq_md_or_suffix {extension name : Text} (h : '.' :: extension <:+ name)
    (hpage : ".md".toList <:+ name) :
    extension = "md".toList ∨ ".md".toList <:+ extension := by
  rcases List.suffix_or_suffix_of_suffix h hpage with hsource | hsource
  · rcases List.suffix_cons_iff.mp hsource with heq | hshort
    · exact .inl (List.cons.inj heq).2
    · have hdot : '.' ∈ ['m', 'd'] := hshort.subset List.mem_cons_self
      exact absurd hdot (by decide)
  · rcases List.suffix_cons_iff.mp hsource with heq | hlong
    · exact .inl (List.cons.inj heq).2.symm
    · exact .inr hlong

theorem suffix_pageName {name : Text} (hname : IsName name) (hpage : IsName (pageName name)) :
    ".md".toList <:+ pageName name := by
  have hdots := (isName_iff.mp hpage).2.2.1
  rw [pageName, renamed_eq hname] at hdots ⊢
  split at hdots
  · exact absurd rfl hdots
  · rename_i hstem
    rw [if_neg hstem]
    exact List.suffix_append _ _

section
variable {w : Walk} {t t' : FileTree} {c : Config} {place : Location} {names : List Location}
variable {sources : List Source}

/-- No page is written to the place of a source. -/
theorem Run.ne_pageAt (h : Run t c place names sources t') (hmd : c.extension ≠ "md".toList)
    (hdotmd : ¬ ".md".toList <:+ c.extension) {p : Location} (hp : IsSourcePlace c.extension p)
    {q : Location} (hq : q ∈ names) : place ++ p ≠ pageAt t c q := by
  intro heq
  have hpages := h.isName_pageNames hq
  obtain ⟨directories, last, rfl, hlast⟩ := exists_concat_of_isSourcePlace hp
  obtain ⟨directories', name, rfl⟩ := (List.eq_nil_or_concat' q).resolve_left (h.ne_nil hq)
  rw [pageAt, pageNames_concat, ← List.append_assoc, ← List.append_assoc, concat_inj] at heq
  rw [pageNames_concat] at hpages
  have hpage := suffix_pageName (h.isName _ hq name (by simp)) (hpages _ (by simp))
  rw [← heq.2] at hpage
  rcases eq_md_or_suffix hlast hpage with hextension | hsuffix
  · exact hmd hextension
  · exact hdotmd hsuffix

/-- The sources are what they were. -/
theorem Run.filesBelow_eq (h : Run t c place names sources t')
    (hmd : c.extension ≠ "md".toList) (hdotmd : ¬ ".md".toList <:+ c.extension) {p : Location}
    (hp : IsSourcePlace c.extension p) : t'.filesBelow place p = t.filesBelow place p := by
  unfold filesBelow
  rcases h.others fun q hq => h.ne_pageAt hmd hdotmd hp hq with hkept | ⟨hnone, hnew⟩
  · rw [hkept]
  · rw [hnone, hnew]

theorem Run.readSources_eq (h : Run t c place names sources t')
    (hmd : c.extension ≠ "md".toList) (hdotmd : ¬ ".md".toList <:+ c.extension)
    (hfinds : WalkFinds w t' c) : readSources w t' c = .ok sources := by
  have hroot := h.wrote.keeps.reaches h.root
  obtain ⟨names', hsorted, hmem, hread⟩ := exists_readSources hroot (hfinds place hroot)
  have hnames : names' = names := by
    apply eq_of_pairwise_placeKey hsorted h.sorted
    intro q
    rw [hmem, h.mem]
    constructor
    · rintro ⟨hplace, hfile⟩
      exact ⟨hplace, h.filesBelow_eq hmd hdotmd hplace ▸ hfile⟩
    · rintro ⟨hplace, hfile⟩
      exact ⟨hplace, (h.filesBelow_eq hmd hdotmd hplace).symm ▸ hfile⟩
  have hfound : names.mapM (fun q => (t'.filesBelow place q).bind (sourceOf? q)) =
      some sources := by
    rw [mapM_eq_some_iff]
    have hplaces : ∀ q ∈ names, IsSourcePlace c.extension q := fun q hq => ((h.mem q).mp hq).1
    apply ((List.forall₂_and_left names sources).mpr
      ⟨hplaces, mapM_eq_some_iff.mp h.found⟩).imp
    rintro q s ⟨hplace, hsource⟩
    rwa [h.filesBelow_eq hmd hdotmd hplace]
  rw [hnames, hfound] at hread
  exact toOption_eq_some_iff.mp hread

end

/-- A second run ends as the first one did, and finds every file as it leaves it. -/
theorem generate_again {w : Walk} {t t' : FileTree} {c : Config} {n : ℕ} (ht : t.Named)
    (hmd : c.extension ≠ "md".toList) (hdotmd : ¬ ".md".toList <:+ c.extension)
    (hfinds : WalkFinds w t c) (h : generateWith w t c = (.ok n, t'))
    (hfinds' : WalkFinds w t' c) :
    ∃ t'', generateWith w t' c = (.ok n, t'') ∧ ∀ q, t''.node? q = t'.node? q := by
  obtain ⟨place, names, sources, hrun, rfl⟩ := exists_run ht hfinds h
  have hfree : ∀ d ∈ (writes t c.outputRoot (pages c.baseUrl sources)).map Prod.fst,
      ¬ t'.isDirectoryAt d := by
    intro d hd
    rw [hrun.map_fst_writes] at hd
    obtain ⟨q, hq, rfl⟩ := List.mem_map.mp hd
    obtain ⟨content, -, hfile⟩ := hrun.exists_page hq
    rw [isDirectoryAt_iff, hfile]
    simp
  obtain ⟨t'', hwrite, hnodes⟩ := writePages_again hrun.write (.refl t') hfree
  refine ⟨t'', generateWith_of_write (hrun.readSources_eq hmd hdotmd hfinds') hwrite, fun q => ?_⟩
  rw [hnodes]
  cases hlast : lastWritten (writes t c.outputRoot (pages c.baseUrl sources)) q with
  | none => rfl
  | some content => exact (hrun.wrote.written q content hlast).symm

theorem walkFinds_pagedTree : WalkFinds Glob.walk pagedTree dotConfig := by
  have hroot : pagedTree.Reaches dotConfig.sourceRoot ["lua".toList] := ⟨by decide, by decide⟩
  apply walkFinds_glob (by decide) hroot (by decide) (by decide) (by decide)
  intro names hnames
  have hlisted : names = [] ∨ names = [".lua".toList] ∨ names = [".lua.lua".toList] ∨
      names = [".lua.md".toList] := by
    simpa [pagedTree, dotTree] using (mem_below_iff.mp hnames).2
  rcases hlisted with rfl | rfl | rfl | rfl <;> decide

theorem generate_dotTree_again :
    dotTree.Named ∧ dotConfig.extension ≠ "md".toList ∧ ¬ ".md".toList <:+ dotConfig.extension ∧
      WalkFinds Glob.walk dotTree dotConfig ∧
        generateWith Glob.walk dotTree dotConfig = (.ok 2, pagedTree) ∧
        WalkFinds Glob.walk pagedTree dotConfig ∧
          ∃ t'', generateWith Glob.walk pagedTree dotConfig = (.ok 2, t'') ∧
            ∀ q, t''.node? q = pagedTree.node? q := by
  have hnamed : dotTree.Named := by decide
  have hmd : dotConfig.extension ≠ "md".toList := by decide
  have hdotmd : ¬ ".md".toList <:+ dotConfig.extension := by decide
  have hrun := generate_dotTree walkFinds_dotTree
  exact ⟨hnamed, hmd, hdotmd, walkFinds_dotTree, hrun, walkFinds_pagedTree,
    generate_again hnamed hmd hdotmd walkFinds_dotTree hrun walkFinds_pagedTree⟩

end Site
end ApiManual
