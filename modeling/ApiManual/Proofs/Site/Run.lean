import ApiManual.Proofs.Site.Address
import ApiManual.Proofs.Site.Effect
import ApiManual.Proofs.Site.Independence

/-!
# Successful runs

A run that succeeds has read the sources at certain places below the source root and has
written a page for each of them, at the same place below the output root but for the
name's extension.
-/

namespace ApiManual
namespace Site

open ApiManual.Path ApiManual.FileTree

/-- A run reads the sources at these places and leaves the tree `t'`. -/
structure Run (t : FileTree) (c : Config) (place : Location) (names : List Location)
    (sources : List Source) (t' : FileTree) : Prop where
  root : t.Reaches c.sourceRoot place
  sorted : names.Pairwise fun p q => placeKey p < placeKey q
  mem : ∀ q, q ∈ names ↔ IsSourcePlace c.extension q ∧ (t.filesBelow place q).isSome
  isName : ∀ q ∈ names, ∀ name ∈ q, IsName name
  found : names.mapM (fun q => (t.filesBelow place q).bind (sourceOf? q)) = some sources
  write : writePages t c.outputRoot (pages c.baseUrl sources) = (.ok (), t')

section
variable {w : Walk} {t t' : FileTree} {c : Config} {n : ℕ}

theorem exists_of_generateWith (h : generateWith w t c = (.ok n, t')) :
    ∃ sources, readSources w t c = .ok sources ∧ n = sources.length ∧
      writePages t c.outputRoot (pages c.baseUrl sources) = (.ok (), t') := by
  unfold generateWith at h
  split at h
  · cases h
  · rename_i sources hread
    split at h
    · rename_i hwrite
      cases h
      exact ⟨sources, hread, rfl, hwrite⟩
    · cases h

theorem generateWith_of_write {sources : List Source} (hread : readSources w t c = .ok sources)
    (hwrite : writePages t c.outputRoot (pages c.baseUrl sources) = (.ok (), t')) :
    generateWith w t c = (.ok sources.length, t') := by
  rw [generateWith, hread]
  simp only [hwrite]

theorem isDirectory_of_readSources {sources : List Source} (h : readSources w t c = .ok sources) :
    t.isDirectory c.sourceRoot := by
  obtain ⟨paths, hpaths, -⟩ := exists_of_bind_ok h
  exact (discover_eq_ok_iff.mp hpaths).1

theorem isName_of_mem {place : Location} {names : List Location} (ht : t.Named)
    (hmem : ∀ q, q ∈ names ↔ IsSourcePlace c.extension q ∧ (t.filesBelow place q).isSome) :
    ∀ q ∈ names, ∀ name ∈ q, IsName name := by
  intro q hq
  obtain ⟨content, hcontent⟩ := Option.isSome_iff_exists.mp ((hmem q).mp hq).2
  exact ht.isName_of_filesBelow hcontent

/-- Every successful run is of this form, if the walk finds the sources. -/
theorem exists_run (ht : t.Named) (hfinds : WalkFinds w t c)
    (h : generateWith w t c = (.ok n, t')) :
    ∃ place names sources, Run t c place names sources t' ∧ n = sources.length := by
  obtain ⟨sources, hread, hn, hwrite⟩ := exists_of_generateWith h
  obtain ⟨place, hroot⟩ := exists_reaches (isDirectory_of_readSources hread)
  obtain ⟨names, hsorted, hmem, hnames⟩ := exists_readSources hroot (hfinds place hroot)
  rw [hread] at hnames
  exact ⟨place, names, sources,
    ⟨hroot, hsorted, hmem, isName_of_mem ht hmem, hnames.symm, hwrite⟩, hn⟩

end

/-! ## Where pages are written -/

section
variable {t t' : FileTree} {root : Text} {pages : List (Text × Text)}

/-- The paths of all pages can be followed afterwards. -/
theorem writeForm_writePages (h : writePages t root pages = (.ok (), t')) :
    ∀ page ∈ pages, ∃ pieces name place, WriteForm t' (join root page.1) pieces name place := by
  induction pages generalizing t with
  | nil => simp
  | cons page pages ih =>
      obtain ⟨path, text⟩ := page
      obtain ⟨t₁, hpage, hrest⟩ := exists_of_writePages_cons h
      rw [List.forall_mem_cons]
      refine ⟨?_, ih hrest⟩
      obtain ⟨u, -, hfree, rfl, pieces, name, place, hform⟩ := writePage_effect hpage
      have hlater := (Extends.insert hfree _).trans (wrote_writePages hrest).keeps
      exact ⟨pieces, name, place, hform.of_extends hlater⟩

theorem getLast?_splitOn_join (root : Text) {path : Text} (h : isAbsolute path = false) :
    ((join root path).splitOn '/').getLast? = (path.splitOn '/').getLast? := by
  by_cases hroot : root = []
  · rw [hroot, join, h]
    rfl
  · rw [splitOn_join hroot h, List.getLast?_append_of_ne_nil _ (List.splitOn_ne_nil '/' path)]

end

theorem isAbsolute_docPath {names : Location} (hne : names ≠ [])
    (hnames : ∀ name ∈ names, IsName name) : isAbsolute (docPath (ofNames names)) = false := by
  obtain ⟨p, hp⟩ := exists_pagePlace hne hnames
  rw [← hp]
  exact p.isAbsolute_path

/-- The place where a run writes the page of the source at `q`. -/
def pageAt (t : FileTree) (c : Config) (q : Location) : Location :=
  t.destination c.outputRoot ++ pageNames q

section
variable {t t' : FileTree} {c : Config} {place : Location} {names : List Location}
variable {sources : List Source}

theorem Run.source (h : Run t c place names sources t') :
    List.Forall₂ (fun q s => s.path = ofNames q) names sources := by
  apply (mapM_eq_some_iff.mp h.found).imp
  intro q s hsource
  obtain ⟨content, -, hsource⟩ := Option.bind_eq_some_iff.mp hsource
  exact path_of_sourceOf? hsource

theorem Run.ne_nil (h : Run t c place names sources t') {q : Location} (hq : q ∈ names) :
    q ≠ [] :=
  ne_nil_of_isSourcePlace ((h.mem q).mp hq).1

theorem Run.exists_writeForm (h : Run t c place names sources t') {q : Location}
    (hq : q ∈ names) : ∃ pieces name place,
      WriteForm t' (join c.outputRoot (docPath (ofNames q))) pieces name place := by
  obtain ⟨s, hs, hpath⟩ := exists_of_forall₂ h.source.flip hq
  have hpage := writeForm_writePages h.write _ (List.mem_map_of_mem hs)
  rwa [hpath] at hpage

/-- A page is written under names that can be followed. -/
theorem Run.isName_pageNames (h : Run t c place names sources t') {q : Location} (hq : q ∈ names) :
    ∀ name ∈ pageNames q, IsName name := by
  obtain ⟨pieces, last, _, hform⟩ := h.exists_writeForm hq
  have hne := h.ne_nil hq
  have hnames := h.isName q hq
  have hlast : (pageNames q).getLast? = some last := by
    rw [← splitOn_docPath hne hnames, ← getLast?_splitOn_join _ (isAbsolute_docPath hne hnames),
      hform.split, List.getLast?_concat]
  obtain ⟨directories, name, rfl⟩ := (List.eq_nil_or_concat' q).resolve_left hne
  rw [pageNames_concat, List.getLast?_concat] at hlast
  have hpage : IsName (pageName name) := by
    have hslash := noSlash_renamed (hnames name (by simp)).noSlash (by decide : '/' ∉ "md".toList)
    exact isName_of_good (Option.some.inj hlast ▸ hform.good) hslash
  intro other hother
  rw [pageNames_concat, List.mem_append, List.mem_singleton] at hother
  rcases hother with hdirectory | rfl
  · exact hnames other (by simp [hdirectory])
  · exact hpage

theorem Run.destination_eq (h : Run t c place names sources t') {q : Location} (hq : q ∈ names) :
    t.destination (join c.outputRoot (docPath (ofNames q))) = pageAt t c q := by
  have hpages := h.isName_pageNames hq
  have hne : pageNames q ≠ [] := by simp [pageNames]
  rw [docPath_ofNames (h.ne_nil hq) (h.isName q hq), destination_join_ofNames _ hne hpages, pageAt]

/-- The places that a run writes to, in the order of the sources. -/
theorem Run.map_fst_writes (h : Run t c place names sources t') :
    (writes t c.outputRoot (pages c.baseUrl sources)).map Prod.fst = names.map (pageAt t c) := by
  have hwrites : (writes t c.outputRoot (pages c.baseUrl sources)).map Prod.fst =
      sources.map fun s => t.destination (join c.outputRoot (docPath s.path)) := by
    simp only [writes, pages, List.map_map, Function.comp_def]
  have hplaces : List.Forall₂ (fun q s => q ∈ names ∧ s.path = ofNames q) names sources :=
    (List.forall₂_and_left names sources).mpr ⟨fun q hq => hq, h.source⟩
  rw [hwrites, ← List.forall₂_eq_eq_eq, List.forall₂_map_left_iff, List.forall₂_map_right_iff]
  apply hplaces.flip.imp
  rintro s q ⟨hq, hpath⟩
  rw [hpath, h.destination_eq hq]

theorem Run.wrote (h : Run t c place names sources t') :
    Wrote t (writes t c.outputRoot (pages c.baseUrl sources)) t' :=
  wrote_writePages h.write

/-- The page of each source is there afterwards. -/
theorem Run.exists_page (h : Run t c place names sources t') {q : Location} (hq : q ∈ names) :
    ∃ content, lastWritten (writes t c.outputRoot (pages c.baseUrl sources)) (pageAt t c q) =
      some content ∧ t'.node? (pageAt t c q) = some (.file content) := by
  have hmem : pageAt t c q ∈ (writes t c.outputRoot (pages c.baseUrl sources)).map Prod.fst := by
    rw [h.map_fst_writes]
    exact List.mem_map_of_mem hq
  rw [← not_not (a := pageAt t c q ∈ _), ← lastWritten_eq_none_iff, ← ne_eq,
    Option.ne_none_iff_exists'] at hmem
  obtain ⟨content, hcontent⟩ := hmem
  exact ⟨content, hcontent, h.wrote.written _ _ hcontent⟩

/-- Nothing else changes, but for directories that were missing. -/
theorem Run.others (h : Run t c place names sources t') {p : Location}
    (hp : ∀ q ∈ names, p ≠ pageAt t c q) :
    t'.node? p = t.node? p ∨ t.node? p = none ∧ t'.node? p = some .directory := by
  apply h.wrote.others
  rw [h.map_fst_writes, List.mem_map]
  rintro ⟨q, hq, heq⟩
  exact hp q hq heq.symm

end

/-! ## A site with twins -/

/-- Two sources whose pages have one place. -/
def dotTree : FileTree where
  nodes := [
    (["lua".toList], .directory),
    (["lua".toList, ".lua".toList], .file "--- First.".toUTF8),
    (["lua".toList, ".lua.lua".toList], .file "--- Second.".toUTF8)]

/-- The pages stand among the sources. -/
def dotConfig : Config := { outputRoot := "lua".toList }

def dotSources : List Source :=
  [⟨".lua".toList, { name := ".lua".toList, summary := "First.".toList }⟩,
    ⟨".lua.lua".toList, { name := ".lua".toList, summary := "Second.".toList }⟩]

/-- The page that stays. -/
def dotPage : Text :=
  Page.text (indexOf dotConfig.baseUrl dotSources)
    { name := ".lua".toList, summary := "Second.".toList }

/-- The tree with the page that both sources have. -/
def pagedTree : FileTree where
  nodes := dotTree.nodes ++ [(["lua".toList, ".lua.md".toList], .file (pageBytes dotPage))]

def dotPlaces : List Location :=
  [[".lua".toList], [".lua.lua".toList]]

theorem mem_dotPlaces_iff {q : Location} :
    q ∈ dotPlaces ↔
      IsSourcePlace dotConfig.extension q ∧ (dotTree.filesBelow ["lua".toList] q).isSome := by
  rw [dotPlaces, List.mem_cons, List.mem_singleton]
  constructor
  · rintro (rfl | rfl)
    · exact ⟨⟨_, rfl, List.suffix_refl _⟩, rfl⟩
    · exact ⟨⟨_, rfl, List.suffix_append ".lua".toList _⟩, rfl⟩
  · rintro ⟨-, hfile⟩
    by_contra hother
    rw [not_or] at hother
    have hnone : dotTree.filesBelow ["lua".toList] q = none := by
      simp_all [filesBelow, node?, dotTree, lookup_cons_if]
    rw [hnone] at hfile
    cases hfile

theorem eq_dotPlaces {names : List Location}
    (hsorted : names.Pairwise fun p q => placeKey p < placeKey q)
    (hmem : ∀ q, q ∈ names ↔
      IsSourcePlace dotConfig.extension q ∧ (dotTree.filesBelow ["lua".toList] q).isSome) :
    names = dotPlaces := by
  apply eq_of_pairwise_placeKey hsorted (by decide)
  intro q
  rw [hmem, mem_dotPlaces_iff]

theorem reaches_dotTree : dotTree.Reaches dotConfig.sourceRoot ["lua".toList] :=
  ⟨by decide, by decide⟩

theorem walkFinds_dotTree : WalkFinds Glob.walk dotTree dotConfig := by
  apply walkFinds_glob (by decide) reaches_dotTree (by decide) (by decide) (by decide)
  intro names hnames
  have hlisted : names = [] ∨ names = [".lua".toList] ∨ names = [".lua.lua".toList] := by
    simpa [dotTree] using (mem_below_iff.mp hnames).2
  rcases hlisted with rfl | rfl | rfl <;> decide

theorem exists_pages_dotSources :
    ∃ first, pages dotConfig.baseUrl dotSources =
      [(".lua.md".toList, first), (".lua.md".toList, dotPage)] :=
  ⟨_, rfl⟩

section
variable {w : Walk}

theorem readSources_dotTree (hfinds : WalkFinds w dotTree dotConfig) :
    readSources w dotTree dotConfig = .ok dotSources := by
  obtain ⟨names, hsorted, hmem, hread⟩ :=
    exists_readSources reaches_dotTree (hfinds _ reaches_dotTree)
  have hsources : dotPlaces.mapM (fun q => (dotTree.filesBelow ["lua".toList] q).bind
      (sourceOf? q)) = some dotSources := by cbv
  rw [eq_dotPlaces hsorted hmem, hsources] at hread
  exact toOption_eq_some_iff.mp hread

/-- The run counts two pages and leaves one. -/
theorem generate_dotTree (hfinds : WalkFinds w dotTree dotConfig) :
    generateWith w dotTree dotConfig = (.ok 2, pagedTree) := by
  obtain ⟨first, hpages⟩ := exists_pages_dotSources
  apply generateWith_of_write (readSources_dotTree hfinds)
  rw [hpages]
  rfl

end

end Site
end ApiManual
