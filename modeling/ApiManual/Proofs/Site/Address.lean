import ApiManual.Proofs.Path.Tail
import ApiManual.Proofs.Site.Placement

/-!
# Addresses of pages

The page of a source and its URL are told by the directories the source is in and by the
stem of its name.  Sources with the same extension share an address only where that
extension, or nothing but dots, is all there is to a name.  Wherever something else is left
of a name, the URL of a page names the file that the page is written to.
-/

namespace ApiManual
namespace Site

open ApiManual.Path

/-! ## Stems -/

/-- The part of an extension behind its last dot. -/
def lastPart (extension : Text) : Text :=
  (extension.reverse.takeWhile (· ≠ '.')).reverse

theorem lastPart_of_noDot {extension : Text} (h : '.' ∉ extension) :
    lastPart extension = extension := by
  have hall : ∀ c ∈ extension.reverse, decide (c ≠ '.') := by
    intro c hc
    rw [decide_eq_true_eq]
    rintro rfl
    exact h (List.mem_reverse.mp hc)
  rw [lastPart, List.takeWhile_eq_self_iff.mpr hall, List.reverse_reverse]

theorem lastPart_dot (front : Text) {back : Text} (h : '.' ∉ back) :
    lastPart (front ++ '.' :: back) = back :=
  takeWhile_reverse_dot front h

/-- A name is cut in front of the last part of its extension, unless the extension is one
part and the whole name. -/
theorem splitName_of_suffix {extension name : Text} (h : '.' :: extension <:+ name) :
    '.' ∉ extension ∧ name = '.' :: extension ∧ splitName name = (name, none) ∨
      ∃ stem, stem ≠ [] ∧ name = stem ++ '.' :: lastPart extension ∧
        splitName name = (stem, some (lastPart extension)) := by
  obtain ⟨front, rfl⟩ := h
  by_cases hdot : '.' ∈ extension
  · right
    obtain ⟨before, last, hlast, rfl⟩ := exists_last_dot hdot
    have hname : front ++ '.' :: (before ++ '.' :: last) =
        (front ++ '.' :: before) ++ '.' :: last := by simp
    refine ⟨front ++ '.' :: before, by simp, by rw [lastPart_dot before hlast, hname], ?_⟩
    rw [hname, splitName_dot _ hlast, lastPart_dot before hlast]
    simp
  · have hsplit := splitName_dot front hdot
    by_cases hfront : front = []
    · left
      exact ⟨hdot, by simp [hfront], by simpa [hfront] using hsplit⟩
    · right
      rw [lastPart_of_noDot hdot]
      exact ⟨front, hfront, rfl, by simpa [hfront] using hsplit⟩

/-- The two names that an extension gives one stem. -/
def TwinNames (extension a b : Text) : Prop :=
  '.' ∉ extension ∧ a = '.' :: extension ∧ b = '.' :: extension ++ '.' :: extension

section
variable {extension a b : Text}

theorem stem_of_twinNames (h : TwinNames extension a b) : (splitName a).1 = (splitName b).1 := by
  obtain ⟨hdot, rfl, rfl⟩ := h
  have hwhole := splitName_dot [] hdot
  rw [List.nil_append] at hwhole
  rw [hwhole, splitName_dot _ hdot]
  rfl

/-- Names with one extension have different stems, but for the twins. -/
theorem stem_eq_iff (ha : '.' :: extension <:+ a) (hb : '.' :: extension <:+ b) :
    (splitName a).1 = (splitName b).1 ↔
      a = b ∨ TwinNames extension a b ∨ TwinNames extension b a := by
  constructor
  · intro hstem
    rcases splitName_of_suffix ha with ⟨hdot, hname, hsplit⟩ | ⟨stem, hne, hname, hsplit⟩ <;>
      rcases splitName_of_suffix hb with
        ⟨hdot', hname', hsplit'⟩ | ⟨stem', hne', hname', hsplit'⟩ <;>
      simp only [hsplit, hsplit'] at hstem
    · exact .inl hstem
    · right; left
      rw [lastPart_of_noDot hdot, ← hstem, hname] at hname'
      exact ⟨hdot, hname, hname'⟩
    · right; right
      rw [lastPart_of_noDot hdot', hstem, hname'] at hname
      exact ⟨hdot', hname', hname⟩
    · left
      rw [hname, hname', hstem]
  · rintro (rfl | htwins | htwins)
    · rfl
    · exact stem_of_twinNames htwins
    · exact (stem_of_twinNames htwins).symm

end

theorem stem_ne_nil {name : Text} (h : IsName name) : (splitName name).1 ≠ [] := by
  rcases splitName_cases name with hwhole | ⟨stem, ext, hstem, -, -, hsplit⟩
  · rw [hwhole]
    exact h.ne_nil
  · rwa [hsplit]

theorem noSlash_stem {name : Text} (h : '/' ∉ name) : '/' ∉ (splitName name).1 := by
  rcases splitName_cases name with hwhole | ⟨stem, ext, -, -, rfl, hsplit⟩
  · rwa [hwhole]
  · rw [hsplit]
    exact fun hmem => h (List.mem_append_left _ hmem)

/-- Only an extension can be cut off a name so that a single dot is left. -/
theorem renamed_eq {name : Text} (h : IsName name) (ext : Text) :
    renamed name ext =
      if (splitName name).1 = ['.'] then ['.', '.']
      else (splitName name).1 ++ if ext.isEmpty then [] else '.' :: ext := by
  rw [renamed]
  rcases splitName_cases name with hwhole | ⟨stem, present, -, -, -, hsplit⟩
  · have hname := (isName_iff.mp h).2.1
    simp [hwhole, hname]
  · simp [hsplit]

/-! ## Pages -/

/-- The name of a page without its directories. -/
def pageName (name : Text) : Text :=
  renamed name "md".toList

/-- The names that lead to the page of a source from the output root. -/
def pageNames (names : Location) : Location :=
  names.dropLast ++ [pageName (names.getLastD [])]

theorem pageNames_concat (directories : Location) (name : Text) :
    pageNames (directories ++ [name]) = directories ++ [pageName name] := by
  rw [pageNames, List.dropLast_concat, List.getLastD_concat]

theorem exists_concat_of_isSourcePlace {extension : Text} {names : Location}
    (h : IsSourcePlace extension names) :
    ∃ directories name, names = directories ++ [name] ∧ '.' :: extension <:+ name := by
  obtain ⟨name, hlast, hname⟩ := h
  obtain ⟨directories, rfl⟩ := List.getLast?_eq_some_iff.mp hlast
  exact ⟨directories, name, rfl, hname⟩

theorem docPath_ofNames {names : Location} (hne : names ≠ [])
    (hnames : ∀ name ∈ names, IsName name) :
    docPath (ofNames names) = ofNames (pageNames names) := by
  obtain ⟨directories, name, rfl⟩ := (List.eq_nil_or_concat' names).resolve_left hne
  rw [docPath, withExtension_ofNames (fun d hd => (hnames d (by simp [hd])).noSlash)
    (hnames name (by simp)), pageNames_concat, pageName]

theorem splitOn_docPath {names : Location} (hne : names ≠ [])
    (hnames : ∀ name ∈ names, IsName name) :
    (docPath (ofNames names)).splitOn '/' = pageNames names := by
  rw [docPath_ofNames hne hnames]
  obtain ⟨directories, name, rfl⟩ := (List.eq_nil_or_concat' names).resolve_left hne
  rw [pageNames_concat]
  exact splitOn_ofNames_concat (fun d hd => (hnames d (by simp [hd])).noSlash)
    (noSlash_renamed (hnames name (by simp)).noSlash (by decide))

theorem pageNames_eq_iff {p q : Location} (hp : p ≠ []) (hpnames : ∀ name ∈ p, IsName name)
    (hq : q ≠ []) (hqnames : ∀ name ∈ q, IsName name) :
    pageNames p = pageNames q ↔ docPath (ofNames p) = docPath (ofNames q) := by
  rw [← splitOn_docPath hp hpnames, ← splitOn_docPath hq hqnames]
  exact (Function.LeftInverse.injective (Text.join_splitOn '/')).eq_iff

theorem pageName_eq_iff {a b : Text} (ha : IsName a) (hb : IsName b) :
    pageName a = pageName b ↔ (splitName a).1 = (splitName b).1 := by
  have hdots : ∀ stem : Text, ['.', '.'] ≠ stem ++ '.' :: "md".toList := by
    intro stem heq
    have hlength := congrArg List.length heq
    simp at hlength
  rw [pageName, pageName, renamed_eq ha, renamed_eq hb]
  by_cases hdot : (splitName a).1 = ['.'] <;> by_cases hdot' : (splitName b).1 = ['.']
  · simp [hdot, hdot']
  · rw [if_pos hdot, if_neg hdot', hdot]
    exact ⟨fun heq => absurd heq (hdots _), fun heq => absurd heq.symm hdot'⟩
  · rw [if_neg hdot, if_pos hdot', hdot']
    exact ⟨fun heq => absurd heq.symm (hdots _), fun heq => absurd heq hdot⟩
  · rw [if_neg hdot, if_neg hdot']
    exact List.append_left_inj _

/-- Two sources in one directory whose names are twins. -/
def Twins (extension : Text) (p q : Location) : Prop :=
  ∃ directories a b, TwinNames extension a b ∧ p = directories ++ [a] ∧ q = directories ++ [b]

section
variable {extension : Text} {p q : Location}

theorem concat_inj {directories directories' : Location} {a b : Text} :
    directories ++ [a] = directories' ++ [b] ↔ directories = directories' ∧ a = b := by
  constructor
  · intro h
    obtain ⟨hdirectories, hname⟩ := List.append_inj' h rfl
    exact ⟨hdirectories, (List.cons.inj hname).1⟩
  · rintro ⟨rfl, rfl⟩
    rfl

/-- Places whose stems agree. -/
theorem twins_iff {directories directories' : Location} {a b : Text} :
    Twins extension (directories ++ [a]) (directories' ++ [b]) ↔
      directories = directories' ∧ TwinNames extension a b := by
  constructor
  · rintro ⟨d, a', b', htwins, hp, hq⟩
    rw [concat_inj] at hp hq
    obtain ⟨rfl, rfl⟩ := hp
    obtain ⟨rfl, rfl⟩ := hq
    exact ⟨rfl, htwins⟩
  · rintro ⟨rfl, htwins⟩
    exact ⟨_, a, b, htwins, rfl, rfl⟩

theorem Twins.ne (h : Twins extension p q) : p ≠ q := by
  obtain ⟨directories, a, b, ⟨-, rfl, rfl⟩, rfl, rfl⟩ := h
  rw [ne_eq, concat_inj, not_and]
  intro _ heq
  have hlength := congrArg List.length heq
  simp at hlength

/-- Sources have different pages, but for twins. -/
theorem docPath_eq_iff (hp : IsSourcePlace extension p) (hpnames : ∀ name ∈ p, IsName name)
    (hq : IsSourcePlace extension q) (hqnames : ∀ name ∈ q, IsName name) :
    docPath (ofNames p) = docPath (ofNames q) ↔
      p = q ∨ Twins extension p q ∨ Twins extension q p := by
  rw [← pageNames_eq_iff (ne_nil_of_isSourcePlace hp) hpnames (ne_nil_of_isSourcePlace hq) hqnames]
  obtain ⟨directories, a, rfl, ha⟩ := exists_concat_of_isSourcePlace hp
  obtain ⟨directories', b, rfl, hb⟩ := exists_concat_of_isSourcePlace hq
  rw [pageNames_concat, pageNames_concat, concat_inj, concat_inj, twins_iff, twins_iff,
    pageName_eq_iff (hpnames a (by simp)) (hqnames b (by simp)), stem_eq_iff ha hb]
  constructor
  · rintro ⟨rfl, heq | htwins | htwins⟩
    · exact .inl ⟨rfl, heq⟩
    · exact .inr (.inl ⟨rfl, htwins⟩)
    · exact .inr (.inr ⟨rfl, htwins⟩)
  · rintro (⟨rfl, heq⟩ | ⟨rfl, htwins⟩ | ⟨rfl, htwins⟩)
    · exact ⟨rfl, .inl heq⟩
    · exact ⟨rfl, .inr (.inl htwins)⟩
    · exact ⟨rfl, .inr (.inr htwins)⟩

end

/-! ## URLs -/

/-- Nothing but one or two dots stands in front of the extension. -/
def IsDotted (name : Text) : Prop :=
  (splitName name).1 = ['.'] ∨ (splitName name).1 = ['.', '.']

instance (name : Text) : Decidable (IsDotted name) :=
  inferInstanceAs (Decidable (_ ∨ _))

/-- The names that a URL shows.  Dots show nothing. -/
def urlNames (names : Location) : Location :=
  names.dropLast ++
    if IsDotted (names.getLastD []) then [] else [(splitName (names.getLastD [])).1]

theorem urlNames_concat (directories : Location) (name : Text) :
    urlNames (directories ++ [name]) =
      directories ++ if IsDotted name then [] else [(splitName name).1] := by
  rw [urlNames, List.dropLast_concat, List.getLastD_concat]

theorem isName_stem {name : Text} (h : IsName name) (hdotted : ¬ IsDotted name) :
    IsName (splitName name).1 := by
  rw [IsDotted, not_or] at hdotted
  exact isName_iff.mpr ⟨stem_ne_nil h, hdotted.1, hdotted.2, noSlash_stem h.noSlash⟩

theorem renamed_nil {name : Text} (h : IsName name) :
    renamed name [] = if IsDotted name then ['.', '.'] else (splitName name).1 := by
  rw [renamed_eq h]
  by_cases hdot : (splitName name).1 = ['.']
  · simp [hdot, IsDotted]
  · by_cases hdots : (splitName name).1 = ['.', '.'] <;> simp [hdot, hdots, IsDotted]

theorem isName_urlNames {names : Location} (hne : names ≠ [])
    (hnames : ∀ name ∈ names, IsName name) : ∀ name ∈ urlNames names, IsName name := by
  obtain ⟨directories, last, rfl⟩ := (List.eq_nil_or_concat' names).resolve_left hne
  intro name hname
  rw [urlNames_concat, List.mem_append] at hname
  rcases hname with hmem | hmem
  · exact hnames name (by simp [hmem])
  · split at hmem
    · cases hmem
    · rename_i hdotted
      rw [List.mem_singleton.mp hmem]
      exact isName_stem (hnames last (by simp)) hdotted

/-- A path that ends in the directory above. -/
theorem components_ofNames_parent {directories : Location}
    (h : ∀ d ∈ directories, IsName d) :
    components (ofNames (directories ++ [['.', '.']])) = directories.map .normal ++ [.parent] := by
  have hsplit := splitOn_ofNames_concat (fun d hd => (h d hd).noSlash)
    (by decide : '/' ∉ ['.', '.'])
  have hinner : Path.inner (ofNames (directories ++ [['.', '.']])) =
      directories.map .normal ++ [.parent] := by
    have hnormal : directories.filterMap pieceComponent? = directories.map .normal :=
      List.filterMap_eq_map_iff_forall_eq_some.mpr fun d hd => (h d hd).counts
    rw [Path.inner, hsplit, List.filterMap_append, hnormal]
    rfl
  obtain ⟨first, rest, hfirst, hne, hdot⟩ : ∃ first rest,
      directories ++ [['.', '.']] = first :: rest ∧ first ≠ [] ∧ first ≠ ['.'] := by
    cases directories with
    | nil => exact ⟨_, [], rfl, by decide, by decide⟩
    | cons d directories =>
        have hd := isName_iff.mp (h d List.mem_cons_self)
        exact ⟨d, _, rfl, hd.1, hd.2.1⟩
  rw [components_eq, isAbsolute_of_splitOn (hsplit.trans hfirst) hne, hinner, hsplit, hfirst]
  simp [hdot]

theorem filterMap_normalName? (names : Location) :
    (names.map Component.normal).filterMap normalName? = names := by
  rw [List.filterMap_map]
  exact List.filterMap_some

theorem pageUrl_ofNames (baseUrl : Text) {names : Location} (hne : names ≠ [])
    (hnames : ∀ name ∈ names, IsName name) :
    pageUrl baseUrl (ofNames names) =
      Text.dropEndWhile (· = '/') baseUrl ++ '/' :: ofNames (urlNames names) := by
  obtain ⟨directories, last, rfl⟩ := (List.eq_nil_or_concat' names).resolve_left hne
  have hdirectories : ∀ d ∈ directories, IsName d := fun d hd => hnames d (by simp [hd])
  have hlast : IsName last := hnames last (by simp)
  have hshown : (components (withExtension (ofNames (directories ++ [last])) [])).filterMap
      normalName? = urlNames (directories ++ [last]) := by
    rw [withExtension_ofNames (fun d hd => (hdirectories d hd).noSlash) hlast, renamed_nil hlast,
      urlNames_concat]
    split
    · rw [components_ofNames_parent hdirectories, List.filterMap_append, filterMap_normalName?]
      rfl
    · rename_i hdotted
      have hall : ∀ name ∈ directories ++ [(splitName last).1], IsName name := by
        intro name hname
        rcases List.mem_append.mp hname with hmem | hmem
        · exact hdirectories name hmem
        · rw [List.mem_singleton.mp hmem]
          exact isName_stem hlast hdotted
      rw [components_ofNames hall, filterMap_normalName?]
  rw [pageUrl, hshown]
  rfl

/-- Sources whose URLs show the same names: twins, dotted names in one directory, and a
dotted name in a directory that is called like another source. -/
inductive SharesUrl (extension : Text) : Location → Location → Prop
  | twins {p q : Location} (h : Twins extension p q) : SharesUrl extension p q
  | dotted (directories : Location) {a b : Text} (ha : IsDotted a) (hb : IsDotted b) :
      SharesUrl extension (directories ++ [a]) (directories ++ [b])
  | directory (directories : Location) {a b : Text} (ha : IsDotted a) (hb : ¬ IsDotted b) :
      SharesUrl extension (directories ++ [(splitName b).1] ++ [a]) (directories ++ [b])

section
variable {extension : Text} {p q : Location}

theorem SharesUrl.urlNames_eq (h : SharesUrl extension p q) : urlNames p = urlNames q := by
  cases h with
  | twins h =>
      obtain ⟨directories, a, b, htwins, rfl, rfl⟩ := h
      have hstem := stem_of_twinNames htwins
      have hdotted : IsDotted a ↔ IsDotted b := by rw [IsDotted, IsDotted, hstem]
      simp only [urlNames_concat, hdotted, hstem]
  | dotted directories ha hb => rw [urlNames_concat, urlNames_concat, if_pos ha, if_pos hb]
  | directory directories ha hb =>
      rw [urlNames_concat, urlNames_concat, if_pos ha, if_neg hb, List.append_nil]

theorem urlNames_eq_iff (hp : IsSourcePlace extension p) (hq : IsSourcePlace extension q) :
    urlNames p = urlNames q ↔ p = q ∨ SharesUrl extension p q ∨ SharesUrl extension q p := by
  constructor
  · intro heq
    obtain ⟨directories, a, rfl, ha⟩ := exists_concat_of_isSourcePlace hp
    obtain ⟨directories', b, rfl, hb⟩ := exists_concat_of_isSourcePlace hq
    rw [urlNames_concat, urlNames_concat] at heq
    by_cases hdotted : IsDotted a <;> by_cases hdotted' : IsDotted b
    · rw [if_pos hdotted, if_pos hdotted', List.append_nil, List.append_nil] at heq
      subst heq
      exact .inr (.inl (.dotted directories hdotted hdotted'))
    · rw [if_pos hdotted, if_neg hdotted', List.append_nil] at heq
      subst heq
      exact .inr (.inl (.directory directories' hdotted hdotted'))
    · rw [if_neg hdotted, if_pos hdotted', List.append_nil] at heq
      subst heq
      exact .inr (.inr (.directory directories hdotted' hdotted))
    · rw [if_neg hdotted, if_neg hdotted', concat_inj] at heq
      obtain ⟨rfl, hstem⟩ := heq
      rcases (stem_eq_iff ha hb).mp hstem with rfl | htwins | htwins
      · exact .inl rfl
      · exact .inr (.inl (.twins ⟨directories, a, b, htwins, rfl, rfl⟩))
      · exact .inr (.inr (.twins ⟨directories, b, a, htwins, rfl, rfl⟩))
  · rintro (rfl | hshares | hshares)
    · rfl
    · exact hshares.urlNames_eq
    · exact hshares.urlNames_eq.symm

/-- Sources have different URLs, unless these show the same names. -/
theorem pageUrl_eq_iff (baseUrl : Text) (hp : IsSourcePlace extension p)
    (hpnames : ∀ name ∈ p, IsName name) (hq : IsSourcePlace extension q)
    (hqnames : ∀ name ∈ q, IsName name) :
    pageUrl baseUrl (ofNames p) = pageUrl baseUrl (ofNames q) ↔
      p = q ∨ SharesUrl extension p q ∨ SharesUrl extension q p := by
  have hp' := ne_nil_of_isSourcePlace hp
  have hq' := ne_nil_of_isSourcePlace hq
  rw [← urlNames_eq_iff hp hq, pageUrl_ofNames baseUrl hp' hpnames,
    pageUrl_ofNames baseUrl hq' hqnames]
  constructor
  · intro heq
    have hsame : ofNames (urlNames p) = ofNames (urlNames q) :=
      (List.cons.inj (List.append_cancel_left heq)).2
    have hinner := congrArg Path.inner hsame
    rw [inner_ofNames (isName_urlNames hp' hpnames), inner_ofNames (isName_urlNames hq' hqnames)]
      at hinner
    exact List.map_injective_iff.mpr (fun _ _ => Component.normal.inj) hinner
  · intro heq
    rw [heq]

end

/-! ## URLs and pages -/

/-- The page of a source is the file that its URL names, below the output root. -/
theorem pageUrl_append_extension (baseUrl : Text) {names : Location}
    (hnames : ∀ name ∈ names, IsName name) {stem : Text}
    (hstem : fileStem? (ofNames names) = some stem) (hdot : stem ≠ ['.'])
    (hdots : stem ≠ ['.', '.']) :
    pageUrl baseUrl (ofNames names) ++ ".md".toList =
      Text.dropEndWhile (· = '/') baseUrl ++ '/' :: docPath (ofNames names) := by
  have hne : names ≠ [] := by
    rintro rfl
    cases hstem
  obtain ⟨directories, name, rfl⟩ := (List.eq_nil_or_concat' names).resolve_left hne
  have hname : IsName name := hnames name (by simp)
  have hslash : ∀ d ∈ directories, '/' ∉ d := fun d hd => (hnames d (by simp [hd])).noSlash
  rw [fileStem?_ofNames hslash hname, Option.some_inj] at hstem
  subst hstem
  have hdotted : ¬ IsDotted name := not_or.mpr ⟨hdot, hdots⟩
  have hpage : pageName name = (splitName name).1 ++ ".md".toList := by
    rw [pageName, renamed_eq hname, if_neg hdot]
    rfl
  rw [pageUrl_ofNames baseUrl hne hnames, docPath_ofNames hne hnames, urlNames_concat,
    pageNames_concat, if_neg hdotted, hpage, ofNames_concat, ofNames_concat]
  simp only [List.append_assoc, List.cons_append]

/-- A name with dots at both ends: what stands behind its last dot is an empty extension. -/
theorem pageUrl_append_extension_dots :
    let names : Location := ["lua.d".toList, "..a.b.".toList]
    (∀ name ∈ names, IsName name) ∧ fileStem? (ofNames names) = some "..a.b".toList ∧
      "..a.b".toList ≠ ['.'] ∧ "..a.b".toList ≠ ['.', '.'] ∧
      pageUrl "/api//".toList (ofNames names) = "/api/lua.d/..a.b".toList ∧
      pageUrl "/api//".toList (ofNames names) ++ ".md".toList =
        Text.dropEndWhile (· = '/') "/api//".toList ++ '/' :: docPath (ofNames names) := by
  intro names
  have hnames : ∀ name ∈ names, IsName name := by decide
  have hstem : fileStem? (ofNames names) = some "..a.b".toList := by decide +kernel
  have hdot : "..a.b".toList ≠ ['.'] := by decide
  have hdots : "..a.b".toList ≠ ['.', '.'] := by decide
  exact ⟨hnames, hstem, hdot, hdots, by decide +kernel,
    pageUrl_append_extension "/api//".toList hnames hstem hdot hdots⟩

end Site
end ApiManual
