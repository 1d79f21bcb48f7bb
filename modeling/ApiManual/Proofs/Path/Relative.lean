import ApiManual.Proofs.Path.Tail
import Mathlib.Logic.Relation

/-!
# Relative paths

A path is seen from a root as the components behind those of the root.  Nothing but the
components counts, so another spelling of either path makes no difference, and whatever is
joined to a root is seen from it again.
-/

namespace ApiManual
namespace Path

/-! ## Written components -/

/-- A component that its own text stands for between two slashes. -/
structure Plain (c : Component) : Prop where
  counts : pieceComponent? c.text = some c
  noSlash : '/' ∉ c.text

theorem plain_of_mem_inner {path : Text} {c : Component} (h : c ∈ inner path) : Plain c := by
  obtain ⟨piece, hpiece, hc⟩ := List.mem_filterMap.mp h
  have htext := text_of_counts hc
  constructor
  · rwa [htext]
  · rw [htext]
    exact noSlash_of_mem_splitOn hpiece

theorem Plain.ne_root {c : Component} (h : Plain c) : c ≠ .root := by
  rintro rfl
  exact h.noSlash (by decide)

section
variable {cs : List Component}

theorem splitOn_texts (h : ∀ c ∈ cs, Plain c) (hne : cs ≠ []) :
    (ofNames (cs.map Component.text)).splitOn '/' = cs.map Component.text := by
  apply splitOn_ofNames (by simpa using hne)
  rw [List.forall_mem_map]
  exact fun c hc => (h c hc).noSlash

theorem inner_texts (h : ∀ c ∈ cs, Plain c) : inner (ofNames (cs.map Component.text)) = cs := by
  by_cases hne : cs = []
  · rw [hne]
    rfl
  · have hcounts : (cs.map Component.text).filterMap pieceComponent? = cs.map id := by
      rw [List.filterMap_map, List.filterMap_eq_map_iff_forall_eq_some]
      exact fun c hc => (h c hc).counts
    rw [inner, splitOn_texts h hne, hcounts, List.map_id]

theorem isAbsolute_texts (h : ∀ c ∈ cs, Plain c) :
    isAbsolute (ofNames (cs.map Component.text)) = false := by
  cases cs with
  | nil => rfl
  | cons c cs =>
      have hc := (h c List.mem_cons_self).counts
      apply isAbsolute_of_splitOn (splitOn_texts h (by simp))
      intro hnil
      rw [hnil] at hc
      cases hc

theorem components_texts (h : ∀ c ∈ cs, Plain c) :
    components (ofNames (cs.map Component.text)) = cs := by
  have hcurrent : ((ofNames (cs.map Component.text)).splitOn '/').head? ≠ some ['.'] := by
    cases cs with
    | nil => decide
    | cons c cs =>
        have hc := (h c List.mem_cons_self).counts
        rw [splitOn_texts h (by simp), List.map_cons, List.head?_cons, ne_eq, Option.some_inj]
        intro hdot
        rw [hdot] at hc
        cases hc
  rw [components_eq, isAbsolute_texts h, if_neg (by simp), if_neg hcurrent, inner_texts h]
  rfl

theorem ofComponents_plain (h : ∀ c ∈ cs, Plain c) :
    ofComponents cs = ofNames (cs.map Component.text) := by
  unfold ofComponents
  split
  · rename_i rest
    exact absurd rfl (h .root List.mem_cons_self).ne_root
  · rfl

/-- Whatever stands at the end of a path is read back when it is written. -/
theorem components_ofComponents {path : Text} (h : cs <:+ steps path) :
    components (ofComponents cs) = cs := by
  have hplain : cs <:+ inner path → components (ofComponents cs) = cs := by
    intro hsuffix
    have hcs : ∀ c ∈ cs, Plain c := fun c hc => plain_of_mem_inner (hsuffix.subset hc)
    rw [ofComponents_plain hcs, components_texts hcs]
  rw [steps_eq] at h
  cases hpath : isAbsolute path with
  | false =>
      rw [hpath] at h
      exact hplain h
  | true =>
      rw [hpath, if_pos rfl, List.singleton_append, List.suffix_cons_iff] at h
      rcases h with rfl | hsuffix
      · have hinner : ∀ c ∈ inner path, Plain c := fun c hc => plain_of_mem_inner hc
        have hread := inner_slash [] (ofNames ((inner path).map Component.text))
        rw [inner_texts hinner] at hread
        exact congrArg (Component.root :: ·) hread
      · exact hplain hsuffix

end

/-! ## What is seen from a root -/

section
variable {path root : Text}

theorem relative?_of_steps {cs : List Component} (h : steps path = steps root ++ cs) :
    relative? path root = some (ofComponents cs) := by
  rw [relative?, h, if_pos (List.isPrefixOf_iff_prefix.mpr (List.prefix_append _ _)),
    List.drop_left]

theorem relative?_eq_none_iff : relative? path root = none ↔ ¬ steps root <+: steps path := by
  rw [relative?, ← List.isPrefixOf_iff_prefix]
  split <;> simp_all

theorem relative?_eq_iff (rel : Text) :
    (∃ r, relative? path root = some r ∧ components r = components rel) ↔
      steps path = steps root ++ components rel := by
  constructor
  · rintro ⟨r, hr, hrel⟩
    have hprefix : steps root <+: steps path := by
      by_contra hnot
      rw [relative?_eq_none_iff.mpr hnot] at hr
      cases hr
    obtain ⟨cs, hcs⟩ := hprefix
    rw [relative?_of_steps hcs.symm, Option.some_inj] at hr
    rw [← hrel, ← hr, components_ofComponents ⟨steps root, hcs⟩, hcs]
  · intro hsteps
    exact ⟨_, relative?_of_steps hsteps, components_ofComponents ⟨steps root, hsteps.symm⟩⟩

theorem relative?_eq_none_iff_forall :
    relative? path root = none ↔ ∀ rel, steps path ≠ steps root ++ components rel := by
  rw [relative?_eq_none_iff]
  constructor
  · exact fun hnot rel hsteps => hnot ⟨components rel, hsteps.symm⟩
  · rintro hnone ⟨cs, hcs⟩
    apply hnone (ofComponents cs)
    rw [components_ofComponents ⟨steps root, hcs⟩, hcs]

theorem relative?_of_isAbsolute_ne (h : isAbsolute path ≠ isAbsolute root)
    (hroot : steps root ≠ []) : relative? path root = none := by
  have hfirst : ∀ p : Text, isAbsolute p = ((steps p).head? = some .root : Bool) := by
    intro p
    rw [steps_eq]
    cases hp : isAbsolute p with
    | true => rfl
    | false =>
        have hnot : (inner p).head? ≠ some .root := fun hhead =>
          (plain_of_mem_inner (List.mem_of_head? hhead)).ne_root rfl
        simpa using hnot
  rw [relative?_eq_none_iff]
  rintro ⟨cs, hcs⟩
  apply h
  rw [hfirst, hfirst, ← hcs, List.head?_append_of_ne_nil _ hroot]

/-- Names that are joined to a root are seen from it. -/
theorem relative?_join (root : Text) {rel : Text}
    (hrel : ∀ c ∈ components rel, ∃ name, c = .normal name) :
    ∃ r, relative? (join root rel) root = some r ∧ components r = components rel := by
  have habsolute : isAbsolute rel = false := by
    by_contra hroot
    rw [Bool.not_eq_false] at hroot
    obtain ⟨name, hname⟩ := hrel .root (by rw [components_eq, hroot]; simp)
    cases hname
  have hinner : components rel = inner rel := by
    rw [components_eq, habsolute, if_neg (by simp)]
    split
    · rename_i hdot
      obtain ⟨name, hname⟩ := hrel .current (by rw [components_eq, habsolute, hdot]; simp)
      cases hname
    · rfl
  rw [relative?_eq_iff, steps_join root habsolute, hinner]

end

/-! ## Longer names -/

theorem exists_pieceComponent?_append {piece more : Text} {d : Component}
    (hd : pieceComponent? piece = some d) (hmore : more ≠ []) :
    ∃ e, pieceComponent? (piece ++ more) = some e ∧ e ≠ d := by
  have hpiece : piece ≠ [] := by
    rintro rfl
    cases hd
  have hcounts : pieceComponent? (piece ++ more) ≠ none := by
    rw [ne_eq, pieceComponent?_eq_none_iff, not_or]
    refine ⟨by simp [hpiece], ?_⟩
    intro hdot
    have hlength := congrArg List.length hdot
    have hfirst := List.length_pos_iff.mpr hpiece
    have hsecond := List.length_pos_iff.mpr hmore
    rw [List.length_append, List.length_singleton] at hlength
    omega
  obtain ⟨e, he⟩ := Option.ne_none_iff_exists'.mp hcounts
  refine ⟨e, he, ?_⟩
  rintro rfl
  have htext := (text_of_counts he).symm.trans (text_of_counts hd)
  exact hmore (by simpa using htext)

theorem exists_inner_append {piece : Text} {d : Component} (hd : pieceComponent? piece = some d)
    (hslash : '/' ∉ piece) {c : Char} (hc : c ≠ '/') (rest : Text) :
    ∃ e behind, inner (piece ++ c :: rest) = e :: behind ∧ e ≠ d := by
  have hname : ∀ more : Text, '/' ∉ more → '/' ∉ piece ++ c :: more := by
    intro more hmore
    simp [hslash, hmore, Ne.symm hc]
  by_cases hrest : '/' ∈ rest
  · obtain ⟨more, behind, rfl, hmore⟩ := List.eq_append_cons_of_mem hrest
    obtain ⟨e, he, hne⟩ := exists_pieceComponent?_append hd (List.cons_ne_nil c more)
    refine ⟨e, inner behind, ?_, hne⟩
    have hmoreName := inner_of_noSlash (hname more hmore)
    rw [← List.cons_append, ← List.append_assoc, inner_slash, hmoreName, he]
    rfl
  · obtain ⟨e, he, hne⟩ := exists_pieceComponent?_append hd (List.cons_ne_nil c rest)
    refine ⟨e, [], ?_, hne⟩
    rw [inner_of_noSlash (hname rest hrest), he]
    rfl

theorem isAbsolute_append {front : Text} (h : front ≠ []) (behind : Text) :
    isAbsolute (front ++ behind) = isAbsolute front := by
  have hfront := isAbsolute_of_prefix (List.prefix_append front behind) h
  exact hfront.symm

/-- A path is not below a root whose last name goes on in the path. -/
theorem relative?_of_longer_name {root piece : Text} {c : Char}
    (hlast : (root.splitOn '/').getLast? = some piece) (hcounts : pieceComponent? piece ≠ none)
    (hc : c ≠ '/') (rest : Text) : relative? (root ++ c :: rest) root = none := by
  obtain ⟨d, hd⟩ := Option.ne_none_iff_exists'.mp hcounts
  obtain ⟨pieces, hsplit⟩ := List.getLast?_eq_some_iff.mp hlast
  have hslash : ∀ p ∈ pieces ++ [piece], '/' ∉ p := fun p hp =>
    noSlash_of_mem_splitOn (by rwa [hsplit])
  rw [List.forall_mem_append, List.forall_mem_singleton] at hslash
  obtain ⟨e, behind, he, hne⟩ := exists_inner_append hd hslash.2 hc rest
  have hroot : root = slashed pieces ++ piece := eq_slashed hsplit
  have hnil : root ≠ [] := by
    rintro rfl
    cases hlast
    cases hd
  have hinner : inner root = pieces.filterMap pieceComponent? ++ [d] := by
    rw [hroot, inner_slashed_append hslash.1, inner_of_noSlash hslash.2, hd]
    rfl
  have hpath : inner (root ++ c :: rest) = pieces.filterMap pieceComponent? ++ e :: behind := by
    rw [hroot, List.append_assoc, inner_slashed_append hslash.1, he]
  rw [relative?_eq_none_iff, steps_eq, steps_eq, isAbsolute_append hnil, hinner, hpath,
    List.prefix_append_right_inj, List.prefix_append_right_inj, List.cons_prefix_cons]
  exact fun h => hne h.1.symm

/-! ## Spellings -/

/-- One step of spelling: a slash or a `.` more. -/
inductive Respelled : Text → Text → Prop
  | slash (front behind : Text) : Respelled (front ++ '/' :: behind) (front ++ '/' :: '/' :: behind)
  | dot (front behind : Text) :
    Respelled (front ++ '/' :: behind) (front ++ '/' :: '.' :: '/' :: behind)
  | firstDot {path : Text} (h : isAbsolute path = false) : Respelled path ('.' :: '/' :: path)
  | lastDot {path : Text} (h : path ≠ []) : Respelled path (path ++ ['/', '.'])
  | lastSlash {path : Text} (h : path ≠ []) : Respelled path (path ++ ['/'])

theorem isAbsolute_append_slash (front behind behind' : Text) :
    isAbsolute (front ++ '/' :: behind) = isAbsolute (front ++ '/' :: behind') := by
  cases front <;> rfl

theorem Respelled.steps_eq {path path' : Text} (h : Respelled path path') :
    steps path = steps path' := by
  have hnil : inner [] = [] := rfl
  have hdot : inner ['.'] = [] := rfl
  rw [Path.steps_eq, Path.steps_eq]
  cases h with
  | slash front behind =>
      have hagain := inner_slash [] behind
      rw [hnil, List.nil_append, List.nil_append] at hagain
      rw [isAbsolute_append_slash front behind ('/' :: behind), inner_slash, inner_slash, hagain]
  | dot front behind =>
      have hagain := inner_slash ['.'] behind
      rw [hdot, List.nil_append, List.singleton_append] at hagain
      rw [isAbsolute_append_slash front behind ('.' :: '/' :: behind), inner_slash, inner_slash,
        hagain]
  | firstDot habsolute =>
      have hagain := inner_slash ['.'] path
      rw [hdot, List.nil_append, List.singleton_append] at hagain
      rw [habsolute, hagain]
      rfl
  | lastDot hne =>
      have hagain := inner_slash path ['.']
      rw [hdot, List.append_nil] at hagain
      rw [isAbsolute_append hne, hagain]
  | lastSlash hne =>
      have hagain := inner_slash path []
      rw [hnil, List.append_nil] at hagain
      rw [isAbsolute_append hne, hagain]

open Relation (EqvGen)

theorem respelled_cons (front piece : Text) (pieces : List Text) :
    EqvGen Respelled (front ++ '/' :: ofNames (piece :: pieces))
      (front ++ '/' :: piece ++ '/' :: ofNames pieces) := by
  cases pieces with
  | nil =>
      have hne : front ++ '/' :: piece ≠ [] := by simp
      have hone : ofNames [piece] = piece := Text.join_singleton ['/'] piece
      rw [hone]
      exact .rel _ _ (.lastSlash hne)
  | cons next pieces =>
      rw [ofNames_cons_cons, List.append_assoc]
      exact .refl _

/-- Behind a slash only the pieces that count need to be written. -/
theorem respelled_pieces (pieces : List Text) (front : Text) :
    EqvGen Respelled (front ++ '/' :: ofNames pieces)
      (front ++ '/' :: ofNames ((pieces.filterMap pieceComponent?).map Component.text)) := by
  induction pieces generalizing front with
  | nil => exact .refl _
  | cons piece pieces ih =>
      refine (respelled_cons front piece pieces).trans _ _ _ ?_
      cases hpiece : pieceComponent? piece with
      | some c =>
          rw [List.filterMap_cons, hpiece, List.map_cons, text_of_counts hpiece]
          exact (ih (front ++ '/' :: piece)).trans _ _ _ (respelled_cons front piece _).symm
      | none =>
          rw [List.filterMap_cons, hpiece, List.append_assoc]
          refine EqvGen.trans _ _ _ ?_ (ih front)
          rcases pieceComponent?_eq_none_iff.mp hpiece with rfl | rfl
          · exact (EqvGen.rel _ _ (.slash front (ofNames pieces))).symm
          · exact (EqvGen.rel _ _ (.dot front (ofNames pieces))).symm

theorem respelled_ofComponents (path : Text) :
    EqvGen Respelled path (ofComponents (steps path)) := by
  have hpath : ofNames (path.splitOn '/') = path := Text.join_splitOn '/' path
  have hplain : ∀ c ∈ inner path, Plain c := fun c hc => plain_of_mem_inner hc
  cases habsolute : isAbsolute path with
  | true =>
      obtain ⟨behind, rfl⟩ : ∃ behind, path = '/' :: behind := by
        simpa [isAbsolute, List.head?_eq_some_iff] using habsolute
      have hread := respelled_pieces (behind.splitOn '/') []
      have hbehind : ofNames (behind.splitOn '/') = behind := Text.join_splitOn '/' behind
      have hsteps : steps ('/' :: behind) = .root :: inner behind := by
        rw [steps_eq, habsolute]
        exact congrArg (Component.root :: ·) (inner_slash [] behind)
      rw [hbehind] at hread
      rw [hsteps]
      exact hread
  | false =>
      -- A `.` in front makes the path one that has a slash behind its first piece.
      have hread := respelled_pieces (path.splitOn '/') ['.']
      rw [hpath] at hread
      rw [steps_of_relative habsolute, ofComponents_plain hplain]
      exact ((EqvGen.rel _ _ (.firstDot habsolute)).trans _ _ _ hread).trans _ _ _
        (EqvGen.rel _ _ (.firstDot (isAbsolute_texts hplain))).symm

/-- Paths have the same steps exactly when they are two spellings of one path. -/
theorem respelled_iff {path path' : Text} :
    EqvGen Respelled path path' ↔ steps path = steps path' := by
  constructor
  · intro h
    induction h with
    | rel path path' h => exact h.steps_eq
    | refl path => rfl
    | symm path path' _ ih => exact ih.symm
    | trans path path' path'' _ _ ih ih' => exact ih.trans ih'
  · intro h
    have hback := (respelled_ofComponents path').symm
    rw [← h] at hback
    exact (respelled_ofComponents path).trans _ _ _ hback

/-! ## The specification -/

/-- A path is seen from a root as the path whose components follow those of the root, and not
at all if there is none.  So another spelling of either path makes no difference, a root that
a path merely begins with in words is not above it, nothing absolute is below a relative root
that leads anywhere and nothing relative below an absolute one, and names joined to a root are
seen from it again. -/
theorem relative?_inverts_join (path root : Text) :
    (∀ rel, (∃ r, relative? path root = some r ∧ components r = components rel) ↔
        steps path = steps root ++ components rel) ∧
      (relative? path root = none ↔ ∀ rel, steps path ≠ steps root ++ components rel) ∧
      (∀ path' root', EqvGen Respelled path path' → EqvGen Respelled root root' →
        relative? path' root' = relative? path root) ∧
      (∀ piece c rest, (root.splitOn '/').getLast? = some piece → pieceComponent? piece ≠ none →
        c ≠ '/' → relative? (root ++ c :: rest) root = none) ∧
      (isAbsolute path ≠ isAbsolute root → steps root ≠ [] → relative? path root = none) ∧
      ∀ rel, (∀ c ∈ components rel, ∃ name, c = .normal name) →
        ∃ r, relative? (join root rel) root = some r ∧ components r = components rel := by
  refine ⟨relative?_eq_iff, relative?_eq_none_iff_forall, ?_,
    fun _ _ rest hlast hcounts hc => relative?_of_longer_name hlast hcounts hc rest,
    relative?_of_isAbsolute_ne, fun _ hrel => relative?_join root hrel⟩
  intro path' root' hpath hroot
  rw [relative?, relative?, respelled_iff.mp hpath, respelled_iff.mp hroot]

end Path
end ApiManual
