import ApiManual.Proofs.Site.Placement
import ApiManual.Proofs.Site.Writing
import ApiManual.Proofs.Symbol.Origin

/-!
# Pages and the places of sources

Two runs that find the same files below their source roots, each with its own walk, read
the same sources in the same order, index them alike and write the same pages below their
output roots.  A name that several sources register belongs to the source whose path comes
first.
-/

namespace ApiManual

namespace Site

open ApiManual.Path ApiManual.FileTree ApiManual.Symbol

/-- What a source registers on its own. -/
def Source.entries (baseUrl : Text) (s : Source) : List Entry :=
  (({} : Registry).addModule s.doc (s.url baseUrl)).entries

/-- A source registers a name under this entry, on its own page, and no source with an
earlier path registers the name. -/
structure IsFirstSource (baseUrl : Text) (sources : List Source) (e : Entry) (s : Source) :
    Prop where
  mem : s ∈ sources
  registers : e ∈ s.entries baseUrl
  onPage : s.url baseUrl <+: e.anchor
  first : ∀ s' ∈ sources, (∃ d ∈ s'.entries baseUrl, d.symbol = e.symbol) →
    s' = s ∨ key s.path < key s'.path

section
variable {baseUrl : Text} {sources : List Source}

theorem find?_entries_eq_none {s : Source} {symbol : Text} :
    (s.entries baseUrl).find? (·.symbol = symbol) = none ↔
      ¬ ∃ d ∈ s.entries baseUrl, d.symbol = symbol := by
  rw [List.find?_eq_none]
  simp

/-- The index holds a name under the entry that its first source registers. -/
theorem mem_indexOf_iff (hsorted : sources.Pairwise fun a b => key a.path < key b.path)
    {e : Entry} :
    e ∈ (indexOf baseUrl sources).entries ↔ ∃ s, IsFirstSource baseUrl sources e s := by
  have horigin : origin? (sources.map fun s => (s.doc, s.url baseUrl)) e.symbol =
      sources.findSome? fun s => (s.entries baseUrl).find? (·.symbol = e.symbol) := by
    rw [origin?, List.findSome?_map]
    rfl
  rw [indexOf, mem_ofModules_iff, horigin, List.findSome?_eq_some_iff]
  constructor
  · rintro ⟨front, s, back, rfl, hfind, hfront⟩
    have hmem := List.mem_of_find?_eq_some hfind
    have hpage : s.url baseUrl <+: e.anchor := by
      rw [Source.entries, entries_addModule] at hmem
      exact page_isPrefix_of_mem_moduleDefinitions (mem_of_mem_firstDefinitions hmem)
    refine ⟨s, by simp, hmem, hpage, ?_⟩
    intro s' hs' hregisters
    rcases List.mem_append.mp hs' with hin | hin
    · exact absurd hregisters (find?_entries_eq_none.mp (hfront s' hin))
    · rcases List.mem_cons.mp hin with rfl | hin
      · exact .inl rfl
      · have hlater := (List.pairwise_append.mp hsorted).2.1
        exact .inr ((List.pairwise_cons.mp hlater).1 s' hin)
  · rintro ⟨s, hs⟩
    obtain ⟨front, back, rfl⟩ := List.append_of_mem hs.mem
    refine ⟨front, s, back, rfl, ?_, ?_⟩
    · have hmem := hs.registers
      rw [Source.entries, entries_addModule] at hmem ⊢
      exact find?_eq_some_of_mem (nodup_firstDefinitions _) hmem
    · intro s' hs'
      rw [find?_entries_eq_none]
      intro hregisters
      have hbefore : key s'.path < key s.path :=
        (List.pairwise_append.mp hsorted).2.2 s' hs' s List.mem_cons_self
      rcases hs.first s' (List.mem_append_left _ hs') hregisters with rfl | hafter
      · exact lt_irrefl _ hbefore
      · exact lt_asymm hbefore hafter

end

/-! ## Where pages go -/

theorem counts_renamed_md (name : Text) : (pieceComponent? (renamed name "md".toList)).isSome := by
  unfold renamed
  split
  · rfl
  · rw [Option.isSome_iff_ne_none, ne_eq, pieceComponent?_eq_none_iff]
    rintro (hshort | hshort)
    · simpa using congrArg List.length hshort
    · simpa using congrArg List.length hshort

theorem exists_pagePlace {names : Location} (hne : names ≠ [])
    (hnames : ∀ name ∈ names, IsName name) :
    ∃ p : PagePlace, p.path = docPath (ofNames names) := by
  obtain ⟨directories, name, rfl⟩ := (List.eq_nil_or_concat' names).resolve_left hne
  have hdirectories : ∀ d ∈ directories, IsName d := fun d hd => hnames d (by simp [hd])
  have hname : IsName name := hnames name (by simp)
  refine ⟨⟨directories, renamed name "md".toList, hdirectories, ?_, counts_renamed_md name⟩, ?_⟩
  · exact noSlash_renamed hname.noSlash (by decide)
  · exact (withExtension_ofNames (fun d hd => (hdirectories d hd).noSlash) hname _).symm

/-! ## Two runs -/

/-- A run on the given files: they stand below the source root, the walk finds the sources
among them, and the output root is an empty directory. -/
structure Placement (w : Walk) (t : FileTree) (c : Config)
    (files : Location → Option ByteArray) (place out : Location) : Prop where
  named : t.Named
  root : t.Reaches c.sourceRoot place
  files : t.filesBelow place = files
  finds : FindsSources w t c place
  output : t.Reaches c.outputRoot out
  empty : ∀ q, q ≠ [] → t.node? (out ++ q) = none

section
variable {w : Walk} {t : FileTree} {c : Config} {files : Location → Option ByteArray}
variable {place out : Location}

theorem Placement.isName (h : Placement w t c files place out) {q : Location}
    (hq : (files q).isSome) :
    ∀ name ∈ q, IsName name := by
  rw [← h.files] at hq
  obtain ⟨content, hcontent⟩ := Option.isSome_iff_exists.mp hq
  exact h.named.isName_of_filesBelow hcontent

/-- The sources of a run are made of the files alone, in the order of their places. -/
theorem Placement.exists_readSources (h : Placement w t c files place out) :
    ∃ names : List Location, names.Pairwise (fun a b => placeKey a < placeKey b) ∧
      (∀ q, q ∈ names ↔ IsSourcePlace c.extension q ∧ (files q).isSome) ∧
      (readSources w t c).toOption = names.mapM fun q => (files q).bind (sourceOf? q) := by
  rw [← h.files]
  exact Site.exists_readSources h.root h.finds

end

theorem path_of_sourceOf? {names : Location} {content : ByteArray} {s : Source}
    (h : sourceOf? names content = some s) : s.path = ofNames names := by
  obtain ⟨text, -, h⟩ := Option.bind_eq_some_iff.mp h
  obtain ⟨doc, -, rfl⟩ := Option.map_eq_some_iff.mp h
  rfl

theorem nodup_of_placeKey {names : List Location}
    (h : names.Pairwise fun p q => placeKey p < placeKey q) : names.Nodup :=
  h.imp fun hlt heq => by simp [heq] at hlt

theorem eq_of_pairwise_placeKey {as bs : List Location}
    (ha : as.Pairwise fun p q => placeKey p < placeKey q)
    (hb : bs.Pairwise fun p q => placeKey p < placeKey q) (hmem : ∀ q, q ∈ as ↔ q ∈ bs) :
    as = bs := by
  apply List.Perm.eq_of_pairwise _ ha hb
  · exact (List.perm_ext_iff_of_nodup (nodup_of_placeKey ha) (nodup_of_placeKey hb)).mpr hmem
  · intro p q _ _ hpq hqp
    exact absurd hqp (lt_asymm hpq)

section
variable {w : Walk} {t : FileTree} {c : Config} {files : Location → Option ByteArray}
variable {place out : Location}
variable {sources : List Source}

/-- A source of a run comes from a file below the root. -/
theorem Placement.exists_place (h : Placement w t c files place out)
    (hread : readSources w t c = .ok sources) {s : Source} (hs : s ∈ sources) :
    ∃ q, IsSourcePlace c.extension q ∧ (files q).isSome ∧ s.path = ofNames q := by
  obtain ⟨names, -, hmem, hnames⟩ := h.exists_readSources
  rw [hread] at hnames
  obtain ⟨q, hq, hsource⟩ := exists_of_mem_mapM hnames.symm hs
  obtain ⟨content, -, hsource⟩ := Option.bind_eq_some_iff.mp hsource
  obtain ⟨hplace, hfile⟩ := (hmem q).mp hq
  exact ⟨q, hplace, hfile, path_of_sourceOf? hsource⟩

theorem Placement.pairwise_key (h : Placement w t c files place out)
    (hread : readSources w t c = .ok sources) :
    sources.Pairwise fun a b => key a.path < key b.path := by
  obtain ⟨names, hsorted, hmem, hnames⟩ := h.exists_readSources
  rw [hread] at hnames
  have hkey : ∀ q s, (files q).bind (sourceOf? q) = some s → key s.path = placeKey q := by
    intro q s hsource
    obtain ⟨content, hcontent, hsource⟩ := Option.bind_eq_some_iff.mp hsource
    rw [path_of_sourceOf? hsource, key_ofNames (h.isName (by rw [hcontent]; rfl))]
  apply pairwise_of_forall₂ _ (mapM_eq_some_iff.mp hnames.symm) hsorted
  intro p q a b ha hb hpq
  rwa [hkey p a ha, hkey q b hb]

theorem Placement.exists_pages (h : Placement w t c files place out)
    (hread : readSources w t c = .ok sources) (baseUrl : Text) :
    ∃ written : List (PagePlace × Text),
      (written.map fun (p, text) => (p.path, text)) = pages baseUrl sources ∧
        ∀ page ∈ written, ∃ q, IsSourcePlace c.extension q ∧ (files q).isSome ∧
          page.1.path = docPath (ofNames q) := by
  have hpage : ∀ s ∈ sources, ∃ page : PagePlace × Text,
      ((page.1.path, page.2) = (docPath s.path, Page.text (indexOf baseUrl sources) s.doc)) ∧
        ∃ q, IsSourcePlace c.extension q ∧ (files q).isSome ∧
          page.1.path = docPath (ofNames q) := by
    intro s hs
    obtain ⟨q, hplace, hfile, hpath⟩ := h.exists_place hread hs
    obtain ⟨p, hp⟩ := exists_pagePlace (ne_nil_of_isSourcePlace hplace) (h.isName hfile)
    exact ⟨(p, Page.text (indexOf baseUrl sources) s.doc), by rw [hp, hpath], q, hplace, hfile, hp⟩
  obtain ⟨written, hwritten⟩ := exists_forall₂_iff.mpr hpage
  refine ⟨written, ?_, ?_⟩
  · rw [pages, ← List.forall₂_eq_eq_eq, List.forall₂_map_left_iff, List.forall₂_map_right_iff]
    exact (hwritten.imp fun _ _ hboth => hboth.1).flip
  · intro page hmem
    obtain ⟨s, -, hs⟩ := exists_of_forall₂ hwritten hmem
    exact hs.2

end

section
variable {w₁ w₂ : Walk} {t₁ t₂ : FileTree} {c₁ c₂ : Config}
variable {files : Location → Option ByteArray}
variable {place₁ place₂ out₁ out₂ : Location}

/-- Runs on the same files read the same sources in the same order. -/
theorem Placement.readSources_eq (h₁ : Placement w₁ t₁ c₁ files place₁ out₁)
    (h₂ : Placement w₂ t₂ c₂ files place₂ out₂) (hextension : c₁.extension = c₂.extension) :
    (readSources w₁ t₁ c₁).toOption = (readSources w₂ t₂ c₂).toOption := by
  obtain ⟨names₁, hsorted₁, hmem₁, hread₁⟩ := h₁.exists_readSources
  obtain ⟨names₂, hsorted₂, hmem₂, hread₂⟩ := h₂.exists_readSources
  have hnames : names₁ = names₂ := by
    apply eq_of_pairwise_placeKey hsorted₁ hsorted₂
    intro q
    rw [hmem₁, hmem₂, hextension]
  rw [hread₁, hread₂, hnames]

/-- Empty output roots look the same. -/
theorem Placement.mirrors (h₁ : Placement w₁ t₁ c₁ files place₁ out₁)
    (h₂ : Placement w₂ t₂ c₂ files place₂ out₂) : Mirrors t₁ out₁ t₂ out₂ := by
  intro q
  by_cases hq : q = []
  · rw [hq, List.append_nil, List.append_nil, isDirectoryAt_iff.mp h₁.output.isDirectory,
      isDirectoryAt_iff.mp h₂.output.isDirectory]
  · rw [h₁.empty q hq, h₂.empty q hq]

/-- Runs on the same files end alike.  Either none of them succeeds, or they write the same
number of pages and leave the same files below their output roots; and names lead to the
source whose path comes first.  Of the output roots it matters only whether the paths of
the pages are short enough, which is the same for one and the same output root. -/
theorem generate_placement (h₁ : Placement w₁ t₁ c₁ files place₁ out₁)
    (h₂ : Placement w₂ t₂ c₂ files place₂ out₂) (hextension : c₁.extension = c₂.extension)
    (hurl : c₁.baseUrl = c₂.baseUrl)
    (hroom : ∀ q, IsSourcePlace c₁.extension q → (files q).isSome →
      (isPath (join c₁.outputRoot (docPath (ofNames q))) ↔
        isPath (join c₂.outputRoot (docPath (ofNames q))))) :
    ((∃ e₁ e₂ t₁' t₂', generateWith w₁ t₁ c₁ = (.error e₁, t₁') ∧
        generateWith w₂ t₂ c₂ = (.error e₂, t₂')) ∨
      ∃ n t₁' t₂', generateWith w₁ t₁ c₁ = (.ok n, t₁') ∧ generateWith w₂ t₂ c₂ = (.ok n, t₂') ∧
        t₁'.filesBelow out₁ = t₂'.filesBelow out₂) ∧
      ∀ sources, readSources w₁ t₁ c₁ = .ok sources →
        ∀ e, e ∈ (indexOf c₁.baseUrl sources).entries ↔
          ∃ s, IsFirstSource c₁.baseUrl sources e s := by
  refine ⟨?_, fun sources hread e => mem_indexOf_iff (h₁.pairwise_key hread)⟩
  rcases toOption_eq_iff.mp (h₁.readSources_eq h₂ hextension) with
    ⟨e₁, e₂, hread₁, hread₂⟩ | ⟨sources, hread₁, hread₂⟩
  · left
    exact ⟨e₁, e₂, t₁, t₂, by rw [generateWith, hread₁], by rw [generateWith, hread₂]⟩
  · obtain ⟨written, hwritten, hplaces⟩ := h₁.exists_pages hread₁ c₁.baseUrl
    have hshort : ∀ page ∈ written, isPath (join c₁.outputRoot page.1.path) ↔
        isPath (join c₂.outputRoot page.1.path) := by
      intro page hpage
      obtain ⟨q, hplace, hfile, hpath⟩ := hplaces page hpage
      rw [hpath]
      exact hroom q hplace hfile
    have hpages := writePages_mirrors h₁.output h₂.output (h₁.mirrors h₂) hshort
    rw [hwritten] at hpages
    unfold generateWith
    simp only [hread₁, hread₂, ← hurl]
    rcases hpages with ⟨e₁, e₂, t₁', t₂', hrun₁, hrun₂⟩ | ⟨t₁', t₂', hrun₁, hrun₂, hmirrors⟩
    · left
      simp only [hrun₁, hrun₂]
      exact ⟨e₁, e₂, t₁', t₂', rfl, rfl⟩
    · right
      simp only [hrun₁, hrun₂]
      refine ⟨sources.length, t₁', t₂', rfl, rfl, ?_⟩
      funext q
      rw [filesBelow, filesBelow, hmirrors q]

end

def shopContent : ByteArray := "--- @module shop".toUTF8

/-- Two sources that give their modules the same name, below `lua`. -/
def flatTree : FileTree where
  nodes := [
    (["lua".toList], .directory),
    (["lua".toList, "b.lua".toList], .file shopContent),
    (["lua".toList, "a".toList], .directory),
    (["lua".toList, "a".toList, "z.lua".toList], .file shopContent),
    (["doc".toList], .directory),
    (["doc".toList, "api".toList], .directory)]

/-- The same sources below `src/lua`, made in another order. -/
def nestedTree : FileTree where
  nodes := [
    (["doc".toList], .directory),
    (["doc".toList, "api".toList], .directory),
    (["src".toList], .directory),
    (["src".toList, "lua".toList], .directory),
    (["src".toList, "lua".toList, "a".toList], .directory),
    (["src".toList, "lua".toList, "a".toList, "z.lua".toList], .file shopContent),
    (["src".toList, "lua".toList, "b.lua".toList], .file shopContent)]

def nestedConfig : Config := { sourceRoot := "./src//lua/".toList }

theorem filesBelow_nestedTree :
    nestedTree.filesBelow ["src".toList, "lua".toList] = flatTree.filesBelow ["lua".toList] := by
  funext q
  by_cases hb : q = ["b.lua".toList]
  · rw [hb]
    rfl
  by_cases hz : q = ["a".toList, "z.lua".toList]
  · rw [hz]
    rfl
  simp_all [filesBelow, node?, nestedTree, flatTree, lookup_cons_if]

theorem placement_flatTree :
    Placement Glob.walk flatTree {} (flatTree.filesBelow ["lua".toList]) ["lua".toList]
      ["doc".toList, "api".toList] where
  named := by decide
  root := ⟨by decide, by decide⟩
  files := rfl
  finds := by
    apply findsSources_glob (by decide) ⟨by decide, by decide⟩ (by decide) (by decide) (by decide)
    intro names hnames
    have hlisted : names = [] ∨ names = ["b.lua".toList] ∨ names = ["a".toList] ∨
        names = ["a".toList, "z.lua".toList] := by
      simpa [flatTree] using (mem_below_iff.mp hnames).2
    rcases hlisted with rfl | rfl | rfl | rfl <;> decide
  output := ⟨by decide, by decide⟩
  empty := by
    intro q hq
    simp [node?, flatTree, lookup_cons_if, hq]

theorem placement_nestedTree :
    Placement Glob.walk nestedTree nestedConfig (flatTree.filesBelow ["lua".toList])
      ["src".toList, "lua".toList] ["doc".toList, "api".toList] where
  named := by decide
  root := ⟨by decide, by decide⟩
  files := filesBelow_nestedTree
  finds := by
    apply findsSources_glob (by decide) ⟨by decide, by decide⟩ (by decide) (by decide) (by decide)
    intro names hnames
    have hlisted : names = [] ∨ names = ["a".toList] ∨ names = ["a".toList, "z.lua".toList] ∨
        names = ["b.lua".toList] := by
      simpa [nestedTree] using (mem_below_iff.mp hnames).2
    rcases hlisted with rfl | rfl | rfl | rfl <;> decide
  output := ⟨by decide, by decide⟩
  empty := by
    intro q hq
    simp [node?, nestedTree, lookup_cons_if, hq]

theorem generate_flatTree_nestedTree :
    Placement Glob.walk flatTree {} (flatTree.filesBelow ["lua".toList]) ["lua".toList]
        ["doc".toList, "api".toList] ∧
      Placement Glob.walk nestedTree nestedConfig (flatTree.filesBelow ["lua".toList])
        ["src".toList, "lua".toList] ["doc".toList, "api".toList] ∧
      ((∃ e₁ e₂ t₁' t₂', generateWith Glob.walk flatTree {} = (.error e₁, t₁') ∧
          generateWith Glob.walk nestedTree nestedConfig = (.error e₂, t₂')) ∨
        ∃ n t₁' t₂', generateWith Glob.walk flatTree {} = (.ok n, t₁') ∧
          generateWith Glob.walk nestedTree nestedConfig = (.ok n, t₂') ∧
          t₁'.filesBelow ["doc".toList, "api".toList] =
            t₂'.filesBelow ["doc".toList, "api".toList]) ∧
        ∀ sources, readSources Glob.walk flatTree {} = .ok sources →
          ∀ e, e ∈ (indexOf ({} : Config).baseUrl sources).entries ↔
            ∃ s, IsFirstSource ({} : Config).baseUrl sources e s :=
  ⟨placement_flatTree, placement_nestedTree,
    generate_placement placement_flatTree placement_nestedTree rfl rfl fun _ _ _ => Iff.rfl⟩

end Site
end ApiManual
