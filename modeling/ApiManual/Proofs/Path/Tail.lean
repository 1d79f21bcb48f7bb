import ApiManual.Proofs.Path.Components

/-!
# Ends of paths

The last component of a path whose last piece counts, the path with another extension,
and the path of the directory it is in.
-/

namespace ApiManual
namespace Path

/-! ## Names with an extension -/

theorem splitName_of_noDot {name : Text} (h : '.' ∉ name) : splitName name = (name, none) := by
  have hall : ∀ c ∈ name.reverse, decide (c ≠ '.') := by
    intro c hc
    have hne : c ≠ '.' := by
      rintro rfl
      exact h (List.mem_reverse.mp hc)
    simpa using hne
  have hrun : name.reverse.takeWhile (· ≠ '.') = name.reverse := List.takeWhile_eq_self_iff.mpr hall
  simp only [splitName, hrun, List.reverse_reverse, decide_true, Bool.or_true, if_true]

theorem takeWhile_reverse_dot (stem : Text) {ext : Text} (hext : '.' ∉ ext) :
    ((stem ++ '.' :: ext).reverse.takeWhile (· ≠ '.')).reverse = ext := by
  have hall : ∀ c ∈ ext.reverse, decide (c ≠ '.') := by
    intro c hc
    have hne : c ≠ '.' := by
      rintro rfl
      exact hext (List.mem_reverse.mp hc)
    simpa using hne
  rw [List.reverse_append, List.reverse_cons, List.append_assoc,
    List.takeWhile_append_of_pos hall, List.singleton_append, List.takeWhile_cons_of_neg (by simp),
    List.append_nil, List.reverse_reverse]

theorem splitName_dot (stem : Text) {ext : Text} (hext : '.' ∉ ext) :
    splitName (stem ++ '.' :: ext) =
      if stem.isEmpty then (stem ++ '.' :: ext, none) else (stem, some ext) := by
  have hlength : (stem ++ '.' :: ext).length - ext.length - 1 = stem.length := by
    simp only [List.length_append, List.length_cons]
    omega
  have hlong : ext.length ≠ (stem ++ '.' :: ext).length := by
    simp only [List.length_append, List.length_cons]
    omega
  simp only [splitName, takeWhile_reverse_dot stem hext, hlength, List.take_left,
    decide_eq_false hlong, Bool.or_false]

theorem exists_last_dot {s : Text} (h : '.' ∈ s) :
    ∃ front back, '.' ∉ back ∧ s = front ++ '.' :: back := by
  obtain ⟨back, front, hs, hback⟩ := List.eq_append_cons_of_mem (List.mem_reverse.mpr h)
  refine ⟨front.reverse, back.reverse, by simpa using hback, ?_⟩
  rw [← List.reverse_reverse s, hs]
  simp

/-- A name has an extension behind its last dot, unless that dot stands at the front. -/
theorem splitName_cases (name : Text) :
    splitName name = (name, none) ∨
      ∃ stem ext, stem ≠ [] ∧ '.' ∉ ext ∧ name = stem ++ '.' :: ext ∧
        splitName name = (stem, some ext) := by
  by_cases hdot : '.' ∈ name
  · obtain ⟨stem, ext, hext, rfl⟩ := exists_last_dot hdot
    have hsplit := splitName_dot stem hext
    by_cases hstem : stem = []
    · left
      simpa [hstem] using hsplit
    · right
      exact ⟨stem, ext, hstem, hext, rfl, by simpa [hstem] using hsplit⟩
  · exact .inl (splitName_of_noDot hdot)

/-- A name with another extension.  A name that is cut down to two dots stays so. -/
def renamed (name ext : Text) : Text :=
  if (splitName name).2.isSome && (splitName name).1 = ['.'] then ['.', '.']
  else (splitName name).1 ++ if ext.isEmpty then [] else '.' :: ext

/-! ## Last components -/

/-- The text of pieces with a slash behind each. -/
def slashed (pieces : List Text) : Text :=
  pieces.flatMap (· ++ ['/'])

theorem ofNames_concat (names : List Text) (name : Text) :
    ofNames (names ++ [name]) = slashed names ++ name := by
  induction names with
  | nil => simp [ofNames, slashed]
  | cons first names ih =>
      obtain ⟨next, rest, hrest⟩ : ∃ next rest, names ++ [name] = next :: rest :=
        List.exists_cons_of_ne_nil (by simp)
      rw [List.cons_append, hrest, ofNames_cons_cons, ← hrest, ih]
      simp [slashed]

section
variable {path piece : Text} {pieces : List Text} {c : Component}

theorem getLast?_components (hsplit : path.splitOn '/' = pieces ++ [piece])
    (hc : pieceComponent? piece = some c) : (components path).getLast? = some c := by
  have hinner : inner path = pieces.filterMap pieceComponent? ++ [c] := by
    rw [inner, hsplit, List.filterMap_append, List.filterMap_cons, hc]
    rfl
  rw [components_eq, hinner, ← List.append_assoc, List.getLast?_concat]

theorem tail?_eq (hsplit : path.splitOn '/' = pieces ++ [piece])
    (hc : pieceComponent? piece = some c) :
    tail? path = some ⟨slashed pieces, c, []⟩ := by
  rw [tail?, hsplit, List.reverse_concat, tailOfPieces?, hc, List.reverse_reverse, slashed]

theorem fileName?_eq (hsplit : path.splitOn '/' = pieces ++ [piece]) (hpiece : IsName piece) :
    fileName? path = some piece := by
  rw [fileName?, getLast?_components hsplit hpiece.counts]

end

theorem splitOn_ofNames_concat {names : List Text} (hnames : ∀ name ∈ names, '/' ∉ name)
    {name : Text} (hname : '/' ∉ name) :
    (ofNames (names ++ [name])).splitOn '/' = names ++ [name] := by
  apply splitOn_ofNames (by simp)
  intro other hother
  rcases List.mem_append.mp hother with hin | hin
  · exact hnames other hin
  · rwa [List.mem_singleton.mp hin]

theorem fileStem?_ofNames {names : List Text} (hnames : ∀ name ∈ names, '/' ∉ name) {name : Text}
    (hname : IsName name) :
    fileStem? (ofNames (names ++ [name])) = some (splitName name).1 := by
  rw [fileStem?, fileName?_eq (splitOn_ofNames_concat hnames hname.noSlash) hname]
  rfl

theorem setExtension_ofNames {names : List Text} (hnames : ∀ name ∈ names, '/' ∉ name)
    {name : Text} (hname : IsName name) (ext : Text) :
    setExtension (ofNames (names ++ [name])) ext =
      ofNames (names ++ [(splitName name).1 ++ if ext.isEmpty then [] else '.' :: ext]) := by
  have hsplit := splitOn_ofNames_concat hnames hname.noSlash
  rw [setExtension, tail?_eq hsplit hname.counts]
  simp only [ofNames_concat, List.append_assoc]

theorem withExtension_ofNames {names : List Text} (hnames : ∀ name ∈ names, '/' ∉ name)
    {name : Text} (hname : IsName name) (ext : Text) :
    withExtension (ofNames (names ++ [name])) ext = ofNames (names ++ [renamed name ext]) := by
  have hextension : extension? (ofNames (names ++ [name])) = (splitName name).2 := by
    rw [extension?, fileName?_eq (splitOn_ofNames_concat hnames hname.noSlash) hname]
    rfl
  rcases splitName_cases name with hwhole | ⟨stem, present, hstem, hpresent, rfl, hparts⟩
  · rw [withExtension, hextension, hwhole, setExtension_ofNames hnames hname, renamed, hwhole]
    rfl
  · have hcut : (ofNames (names ++ [stem ++ '.' :: present])).take
        ((ofNames (names ++ [stem ++ '.' :: present])).length - present.length) =
          ofNames (names ++ [stem ++ ['.']]) := by
      have hapart : ofNames (names ++ [stem ++ '.' :: present]) =
          ofNames (names ++ [stem ++ ['.']]) ++ present := by
        rw [ofNames_concat, ofNames_concat]
        simp
      rw [hapart, List.length_append, Nat.add_sub_cancel, List.take_left]
    have hslash : '/' ∉ stem ++ ['.'] := by
      have hapart := hname.noSlash
      simp only [List.mem_append, List.mem_cons, not_or] at hapart
      simp [hapart.1]
    rw [withExtension, hextension, hparts]
    simp only [hcut]
    rw [renamed, hparts]
    by_cases hdots : stem = ['.']
    · subst hdots
      have htail := tail?_eq (splitOn_ofNames_concat hnames hslash) (c := .parent) rfl
      rw [setExtension, htail]
      rfl
    · have hcut : IsName (stem ++ ['.']) := by
        rw [isName_iff]
        refine ⟨by simp, ?_, ?_, hslash⟩
        · simpa using hstem
        · intro heq
          exact hdots (List.append_cancel_right (heq : stem ++ ['.'] = ['.'] ++ ['.']))
      have hsplit : splitName (stem ++ ['.']) = (stem, some []) := by
        rw [splitName_dot stem List.not_mem_nil]
        simp [hstem]
      rw [setExtension_ofNames hnames hcut, hsplit]
      simp [hdots]

theorem noSlash_renamed {name ext : Text} (hname : '/' ∉ name) (hext : '/' ∉ ext) :
    '/' ∉ renamed name ext := by
  have hstem : '/' ∉ (splitName name).1 := by
    rcases splitName_cases name with hwhole | ⟨stem, present, -, -, rfl, hparts⟩
    · rwa [hwhole]
    · rw [hparts]
      exact fun hmem => hname (List.mem_append_left _ hmem)
  unfold renamed
  split
  · decide
  · rw [List.mem_append, not_or]
    refine ⟨hstem, ?_⟩
    split
    · simp
    · simpa using hext

/-! ## The directory of a path -/

/-- The last component stands in front of what does not count. -/
theorem tailOfPieces?_skip (absolute : Bool) {skipped : List Text}
    (hskipped : ∀ piece ∈ skipped, pieceComponent? piece = none) {piece : Text} {c : Component}
    (hc : pieceComponent? piece = some c) (earlier : List Text) (behind : Text) :
    ∃ rest, tailOfPieces? absolute (skipped ++ piece :: earlier) behind =
      some ⟨slashed earlier.reverse, c, rest⟩ := by
  induction skipped generalizing behind with
  | nil => exact ⟨behind, by rw [List.nil_append, tailOfPieces?, hc, slashed]⟩
  | cons first skipped ih =>
      rw [List.forall_mem_cons] at hskipped
      obtain ⟨rest, hrest⟩ := ih hskipped.2 ('/' :: first ++ behind)
      refine ⟨rest, ?_⟩
      rw [List.cons_append, tailOfPieces?, hskipped.1]
      simpa using hrest

/-- Where nothing counts, a `.` in front of a relative path does. -/
theorem tailOfPieces?_none (absolute : Bool) {pieces : List Text} (first : Text)
    (hpieces : ∀ piece ∈ pieces ++ [first], pieceComponent? piece = none) (behind : Text) :
    ∃ rest, tailOfPieces? absolute (pieces ++ [first]) behind =
      if first = ['.'] && !absolute then some ⟨[], .current, rest⟩ else none := by
  induction pieces generalizing behind with
  | nil =>
      refine ⟨behind, ?_⟩
      rw [List.nil_append, tailOfPieces?, hpieces first (by simp)]
      rfl
  | cons piece pieces ih =>
      rw [List.cons_append, List.forall_mem_cons] at hpieces
      obtain ⟨rest, hrest⟩ := ih hpieces.2 ('/' :: piece ++ behind)
      refine ⟨rest, ?_⟩
      rw [List.cons_append, tailOfPieces?, hpieces.1]
      simpa using hrest

theorem text_of_counts {piece : Text} {c : Component} (hc : pieceComponent? piece = some c) :
    c.text = piece := by
  unfold pieceComponent? at hc
  split at hc
  · cases hc
  · split at hc
    · rename_i hparent
      cases hc
      exact hparent.symm
    · cases hc
      rfl

theorem counting_cases (pieces : List Text) :
    (∀ piece ∈ pieces, pieceComponent? piece = none) ∨
      ∃ front piece c skipped, pieces = front ++ piece :: skipped ∧
        pieceComponent? piece = some c ∧ ∀ p ∈ skipped, pieceComponent? p = none := by
  induction pieces using List.reverseRecOn with
  | nil => simp
  | append_singleton pieces last ih =>
      cases hlast : pieceComponent? last with
      | some c => exact .inr ⟨pieces, last, c, [], rfl, hlast, by simp⟩
      | none =>
          rcases ih with hnone | ⟨front, piece, c, skipped, rfl, hc, hskipped⟩
          · left
            intro piece hpiece
            rcases List.mem_append.mp hpiece with hin | hin
            · exact hnone piece hin
            · rwa [List.mem_singleton.mp hin]
          · refine .inr ⟨front, piece, c, skipped ++ [last], by simp, hc, ?_⟩
            intro p hp
            rcases List.mem_append.mp hp with hin | hin
            · exact hskipped p hin
            · rwa [List.mem_singleton.mp hin]

theorem filterMap_of_none {pieces : List Text} (h : ∀ p ∈ pieces, pieceComponent? p = none) :
    pieces.filterMap pieceComponent? = [] :=
  List.filterMap_eq_nil_iff.mpr h

section
variable {front skipped : List Text} {piece : Text} {c : Component}

theorem tail?_slashed {pieces : List Text} (hslash : ∀ p ∈ pieces, '/' ∉ p) :
    tail? (slashed pieces) =
      tailOfPieces? (isAbsolute (slashed pieces)) ([] :: pieces.reverse) [] := by
  have hsplit : (slashed pieces).splitOn '/' = pieces ++ [[]] := by
    rw [← List.append_nil (slashed pieces), ← ofNames_concat]
    exact splitOn_ofNames_concat hslash (by simp)
  rw [tail?, hsplit, List.reverse_concat]

theorem tail?_slashed_of_counts (hslash : ∀ p ∈ front ++ piece :: skipped, '/' ∉ p)
    (hc : pieceComponent? piece = some c) (hskipped : ∀ p ∈ skipped, pieceComponent? p = none) :
    ∃ behind, tail? (slashed (front ++ piece :: skipped)) = some ⟨slashed front, c, behind⟩ := by
  have hall : ∀ p ∈ [] :: skipped.reverse, pieceComponent? p = none := by
    intro p hp
    rcases List.mem_cons.mp hp with rfl | hp
    · rfl
    · exact hskipped p (List.mem_reverse.mp hp)
  obtain ⟨behind, htail⟩ := tailOfPieces?_skip
    (isAbsolute (slashed (front ++ piece :: skipped))) hall hc front.reverse []
  have hreverse : [] :: (front ++ piece :: skipped).reverse =
      [] :: skipped.reverse ++ piece :: front.reverse := by simp
  rw [List.reverse_reverse] at htail
  exact ⟨behind, by rw [tail?_slashed hslash, hreverse, htail]⟩

theorem tail?_slashed_of_none (hslash : ∀ p ∈ piece :: skipped, '/' ∉ p)
    (hnone : ∀ p ∈ piece :: skipped, pieceComponent? p = none) :
    ∃ behind, tail? (slashed (piece :: skipped)) =
      if piece = ['.'] then some ⟨[], .current, behind⟩ else none := by
  have hall : ∀ p ∈ [] :: skipped.reverse ++ [piece], pieceComponent? p = none := by
    intro p hp
    simp only [List.cons_append, List.mem_cons, List.mem_append, List.mem_reverse,
      List.not_mem_nil, or_false] at hp
    rcases hp with rfl | hp | rfl
    · rfl
    · exact hnone p (List.mem_cons_of_mem _ hp)
    · exact hnone p List.mem_cons_self
  obtain ⟨behind, htail⟩ :=
    tailOfPieces?_none (isAbsolute (slashed (piece :: skipped))) piece hall []
  have hreverse : [] :: (piece :: skipped).reverse = [] :: skipped.reverse ++ [piece] := by simp
  refine ⟨behind, ?_⟩
  rw [tail?_slashed hslash, hreverse, htail]
  by_cases hdot : piece = ['.']
  · simp [hdot, slashed, isAbsolute]
  · simp [hdot]

end

theorem inner_slashed_append {pieces : List Text} (h : ∀ piece ∈ pieces, '/' ∉ piece)
    (s : Text) : inner (slashed pieces ++ s) = pieces.filterMap pieceComponent? ++ inner s := by
  induction pieces with
  | nil => rfl
  | cons piece pieces ih =>
      rw [List.forall_mem_cons] at h
      have hcut : slashed (piece :: pieces) ++ s = piece ++ '/' :: (slashed pieces ++ s) := by
        simp [slashed]
      rw [hcut, inner_slash, inner_of_noSlash h.1, ih h.2, List.filterMap_cons]
      cases pieceComponent? piece <;> rfl

theorem inner_slashed {front : List Text} (hfront : ∀ piece ∈ front, '/' ∉ piece) {piece : Text}
    (hpiece : '/' ∉ piece) {c : Component} (hc : pieceComponent? piece = some c) :
    inner (slashed front ++ piece) = front.filterMap pieceComponent? ++ [c] := by
  rw [inner_slashed_append hfront, inner_of_noSlash hpiece, hc]
  rfl

theorem eq_slashed {path piece : Text} {pieces : List Text}
    (hsplit : path.splitOn '/' = pieces ++ [piece]) : path = slashed pieces ++ piece := by
  rw [← ofNames_concat, ← hsplit]
  exact (Text.join_splitOn '/' path).symm

/-- The path of the directory that a path with several pieces is in. -/
theorem exists_parent {path piece : Text} {pieces : List Text} {c : Component}
    (hsplit : path.splitOn '/' = pieces ++ [piece]) (hne : pieces ≠ [])
    (hc : pieceComponent? piece = some c) :
    ∃ parent, parent? path = some parent ∧ parent ≠ [] ∧ parent <+: path ∧
      inner parent = pieces.filterMap pieceComponent? := by
  have hslash : ∀ p ∈ pieces, '/' ∉ p := fun p hp =>
    noSlash_of_mem_splitOn (by rw [hsplit]; exact List.mem_append_left _ hp)
  have htail : tail? path = some ⟨slashed pieces, c, []⟩ := tail?_eq hsplit hc
  have hpath := eq_slashed hsplit
  rcases counting_cases pieces with hnone | ⟨front, last, d, skipped, rfl, hlast, hskipped⟩
  · obtain ⟨first, rest, rfl⟩ := List.exists_cons_of_ne_nil hne
    obtain ⟨behind, hdirectory⟩ := tail?_slashed_of_none hslash hnone
    rw [filterMap_of_none hnone, parent?, htail]
    simp only [hdirectory]
    rcases pieceComponent?_eq_none_iff.mp (hnone first List.mem_cons_self) with rfl | rfl
    · refine ⟨['/'], ?_, by simp, ⟨slashed rest ++ piece, by simp [hpath, slashed]⟩, rfl⟩
      simp [hpath, slashed, isAbsolute]
    · refine ⟨['.'], ?_, by simp, ⟨'/' :: slashed rest ++ piece, by simp [hpath, slashed]⟩, rfl⟩
      simp [Component.text]
  · obtain ⟨behind, hdirectory⟩ := tail?_slashed_of_counts hslash hlast hskipped
    have hlastText : last ≠ [] := by
      rintro rfl
      cases hlast
    rw [parent?, htail]
    simp only [hdirectory, text_of_counts hlast]
    refine ⟨slashed front ++ last, rfl, by simp [hlastText], ?_, ?_⟩
    · exact ⟨'/' :: slashed skipped ++ piece, by simp [hpath, slashed]⟩
    · rw [inner_slashed (fun p hp => hslash p (by simp [hp])) (hslash last (by simp)) hlast,
        List.filterMap_append, List.filterMap_cons, hlast, filterMap_of_none hskipped]

end Path
end ApiManual
