import ApiManual.Proofs.Site.Run

/-!
# Page files

A run that succeeds has written one file for each source, but that twins have one file
for both.  The number it gives is that of the files only where no twins are among the
sources.
-/

namespace ApiManual
namespace Site

open ApiManual.Path ApiManual.FileTree

/-- The page of the source at `q` can be found below the output root, in this file. -/
def IsPageFile (t : FileTree) (c : Config) (q file : Location) : Prop :=
  t.locate? (join c.outputRoot (docPath (ofNames q))) = some file ∧
    ∃ content, t.node? file = some (.file content)

section
variable {t t' : FileTree} {c : Config} {place : Location} {names : List Location}
variable {sources : List Source}

theorem Run.nodup (h : Run t c place names sources t') : names.Nodup :=
  nodup_of_placeKey h.sorted

theorem Run.isPageFile (h : Run t c place names sources t') {q : Location} (hq : q ∈ names) :
    IsPageFile t' c q (pageAt t c q) := by
  obtain ⟨pieces, name, directory, hform⟩ := h.exists_writeForm hq
  obtain ⟨content, -, hfile⟩ := h.exists_page hq
  have hplace : t'.destination (join c.outputRoot (docPath (ofNames q))) = pageAt t c q := by
    rw [h.wrote.keeps.destination_eq, h.destination_eq hq]
  have hlocate := hform.locate?_eq (by rw [hplace, hfile]; rfl)
  exact ⟨hplace ▸ hlocate, content, hfile⟩

theorem Run.forall₂_isPageFile (h : Run t c place names sources t') :
    List.Forall₂ (IsPageFile t' c) names (names.map (pageAt t c)) := by
  rw [List.forall₂_map_right_iff, List.forall₂_same]
  exact fun q hq => h.isPageFile hq

theorem Run.pageAt_eq_iff (h : Run t c place names sources t') {p q : Location} (hp : p ∈ names)
    (hq : q ∈ names) :
    pageAt t c p = pageAt t c q ↔ p = q ∨ Twins c.extension p q ∨ Twins c.extension q p := by
  have hpages := pageNames_eq_iff (h.ne_nil hp) (h.isName p hp) (h.ne_nil hq) (h.isName q hq)
  rw [pageAt, pageAt, List.append_right_inj, hpages]
  exact docPath_eq_iff ((h.mem p).mp hp).1 (h.isName p hp) ((h.mem q).mp hq).1 (h.isName q hq)

theorem Run.nodup_pageAt_iff (h : Run t c place names sources t') :
    (names.map (pageAt t c)).Nodup ↔ ∀ p ∈ names, ∀ q ∈ names, ¬ Twins c.extension p q := by
  rw [List.nodup_map_iff_inj_on h.nodup]
  constructor
  · intro hinj p hp q hq htwins
    exact htwins.ne (hinj p hp q hq ((h.pageAt_eq_iff hp hq).mpr (.inr (.inl htwins))))
  · intro hfree p hp q hq heq
    rcases (h.pageAt_eq_iff hp hq).mp heq with hsame | htwins | htwins
    · exact hsame
    · exact absurd htwins (hfree p hp q hq)
    · exact absurd htwins (hfree q hq p hp)

/-- As many files as sources, unless there are twins. -/
theorem Run.card_pageAt_iff (h : Run t c place names sources t') :
    (names.map (pageAt t c)).toFinset.card = names.length ↔
      ∀ p ∈ names, ∀ q ∈ names, ¬ Twins c.extension p q := by
  rw [← h.nodup_pageAt_iff, ← Multiset.coe_nodup, ← Multiset.toFinset_card_eq_card_iff_nodup,
    Multiset.coe_card, List.length_map]
  rfl

end

/-- What discovery finds has different pages but for twins, and different URLs unless
these show the same names.  A run that succeeds has written the page file of each source
and no other file, and the number it gives is that of the files unless there are twins. -/
theorem card_pageFiles_iff {w : Walk} {t : FileTree} {c : Config} {paths : List Text}
    (ht : t.Named) (hfinds : WalkFinds w t c) (h : discover w t c = .ok paths) :
    ∃ names : List Location,
      List.Forall₂ (fun path q => relative? path c.sourceRoot = some (ofNames q)) paths names ∧
      names.Nodup ∧
      (∀ p ∈ names, ∀ q ∈ names,
        (docPath (ofNames p) = docPath (ofNames q) ↔
          p = q ∨ Twins c.extension p q ∨ Twins c.extension q p) ∧
        (pageUrl c.baseUrl (ofNames p) = pageUrl c.baseUrl (ofNames q) ↔
          p = q ∨ SharesUrl c.extension p q ∨ SharesUrl c.extension q p)) ∧
      ∀ n t', generateWith w t c = (.ok n, t') → n = paths.length ∧
        ∃ files : List Location, List.Forall₂ (IsPageFile t' c) names files ∧
          (∀ p, p ∉ files →
            t'.node? p = t.node? p ∨ t.node? p = none ∧ t'.node? p = some .directory) ∧
          (files.toFinset.card = n ↔ ∀ p ∈ names, ∀ q ∈ names, ¬ Twins c.extension p q) := by
  obtain ⟨place, hroot⟩ := exists_reaches (discover_eq_ok_iff.mp h).1
  obtain ⟨paths', names, hdiscover, hleads, hsorted, hmem⟩ :=
    exists_discover hroot (hfinds place hroot)
  have hpaths : paths' = paths := Except.ok.inj (hdiscover.symm.trans h)
  rw [hpaths] at hleads
  have hnames := isName_of_mem ht hmem
  refine ⟨names, hleads.imp fun _ _ => relative?_of_leadsBelow, nodup_of_placeKey hsorted, ?_, ?_⟩
  · intro p hp q hq
    have hplace := ((hmem p).mp hp).1
    have hplace' := ((hmem q).mp hq).1
    exact ⟨docPath_eq_iff hplace (hnames p hp) hplace' (hnames q hq),
      pageUrl_eq_iff c.baseUrl hplace (hnames p hp) hplace' (hnames q hq)⟩
  · intro n t' hgenerate
    obtain ⟨place', names', sources, hrun, rfl⟩ := exists_run ht hfinds hgenerate
    obtain rfl : place' = place := hrun.root.place_eq hroot
    obtain rfl : names' = names :=
      eq_of_pairwise_placeKey hrun.sorted hsorted fun q => by rw [hrun.mem, hmem]
    have hlength := hrun.source.length_eq
    refine ⟨by rw [← hlength, hleads.length_eq], _, hrun.forall₂_isPageFile, ?_, ?_⟩
    · intro p hp
      apply hrun.others
      rintro q hq rfl
      exact hp (List.mem_map_of_mem hq)
    · rw [← hlength, hrun.card_pageAt_iff]

/-- One file for two sources. -/
theorem card_pageFiles_dotTree :
    dotTree.Named ∧ WalkFinds Glob.walk dotTree dotConfig ∧
      discover Glob.walk dotTree dotConfig = .ok ["lua/.lua".toList, "lua/.lua.lua".toList] ∧
      generateWith Glob.walk dotTree dotConfig = (.ok 2, pagedTree) ∧
      ∃ names : List Location, names.length = 2 ∧ ∃ files : List Location,
        List.Forall₂ (IsPageFile pagedTree dotConfig) names files ∧
          (files.toFinset.card = 2 ↔ ∀ p ∈ names, ∀ q ∈ names, ¬ Twins "lua".toList p q) := by
  have hnamed : dotTree.Named := by decide
  have hdiscover : discover Glob.walk dotTree dotConfig =
      .ok ["lua/.lua".toList, "lua/.lua.lua".toList] := by cbv
  have hrun := generate_dotTree walkFinds_dotTree
  obtain ⟨names, hnames, -, -, hruns⟩ := card_pageFiles_iff hnamed walkFinds_dotTree hdiscover
  obtain ⟨-, files, hfiles, -, hcard⟩ := hruns 2 pagedTree hrun
  exact ⟨hnamed, walkFinds_dotTree, hdiscover, hrun, names, hnames.length_eq.symm, files, hfiles,
    hcard⟩

theorem exists_discover_dotTree {w : Walk} (hfinds : WalkFinds w dotTree dotConfig) :
    ∃ paths, discover w dotTree dotConfig = .ok paths ∧
      paths.map (relative? · dotConfig.sourceRoot) =
        [some ".lua".toList, some ".lua.lua".toList] := by
  obtain ⟨paths, names, hdiscover, hleads, hsorted, hmem⟩ :=
    exists_discover reaches_dotTree (hfinds _ reaches_dotTree)
  have hrelative : paths.map (relative? · dotConfig.sourceRoot) =
      names.map fun q => some (ofNames q) := by
    rw [← List.forall₂_eq_eq_eq, List.forall₂_map_left_iff, List.forall₂_map_right_iff]
    exact hleads.imp fun _ _ => relative?_of_leadsBelow
  refine ⟨paths, hdiscover, ?_⟩
  rw [hrelative, eq_dotPlaces hsorted hmem]
  rfl

/-- Whatever walk finds the two sources, the page of the first one is lost, and the run
counts it. -/
theorem docPath_dotTree :
    WalkFinds Glob.walk dotTree dotConfig ∧
      (∀ w, WalkFinds w dotTree dotConfig →
        (∃ paths, discover w dotTree dotConfig = .ok paths ∧
          paths.map (relative? · dotConfig.sourceRoot) =
            [some ".lua".toList, some ".lua.lua".toList]) ∧
        generateWith w dotTree dotConfig = (.ok 2, pagedTree)) ∧
      docPath ".lua".toList = docPath ".lua.lua".toList ∧
      pageUrl dotConfig.baseUrl ".lua".toList = pageUrl dotConfig.baseUrl ".lua.lua".toList ∧
      ∀ p, pagedTree.node? p ≠ dotTree.node? p → p = ["lua".toList, ".lua.md".toList] := by
  refine ⟨walkFinds_dotTree, fun w hfinds => ?_, by decide, by decide, ?_⟩
  · exact ⟨exists_discover_dotTree hfinds, generate_dotTree hfinds⟩
  · intro p hp
    by_contra hne
    have hadded : [(["lua".toList, ".lua.md".toList], Node.file (pageBytes dotPage))].lookup p =
        none := by
      rw [lookup_cons_if, if_neg hne]
      rfl
    apply hp
    rw [node?, node?, pagedTree, List.lookup_append, hadded, Option.or_none]
    rfl

end Site
end ApiManual
