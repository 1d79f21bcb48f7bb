import ApiManual.Text.Basic
import Mathlib.Data.List.Infix
import Mathlib.Data.List.TakeWhile
import Mathlib.Tactic.Common

/-!
# The ends of a text

Readers cut texts at maximal runs and trim what is left.  These are the facts about
runs, trimmed texts and words that reading back a printed text needs.
-/

namespace ApiManual
namespace Text

/-! ## Length in bytes -/

theorem byteLength_append (s t : Text) :
    byteLength (s ++ t) = byteLength s + byteLength t := by
  induction s with
  | nil => simp [byteLength]
  | cons c s ih =>
      simp only [List.cons_append, byteLength, ih]
      omega

theorem byteLength_eq_zero_iff (s : Text) : byteLength s = 0 ↔ s = [] := by
  cases s with
  | nil => simp [byteLength]
  | cons c s =>
      have := c.utf8Size_pos
      simp only [byteLength, reduceCtorEq, iff_false]
      omega

theorem byteLength_lt_of_inside {s t : Text} (hinside : s <:+: t) (hne : s ≠ t) :
    byteLength s < byteLength t := by
  obtain ⟨front, behind, rfl⟩ := hinside
  rw [byteLength_append, byteLength_append]
  by_contra hle
  have hfront : front = [] := (byteLength_eq_zero_iff front).mp (by omega)
  have hbehind : behind = [] := (byteLength_eq_zero_iff behind).mp (by omega)
  exact hne (by simp [hfront, hbehind])

theorem byteLength_le_of_prefix {s t : Text} (h : s <+: t) : byteLength s ≤ byteLength t := by
  obtain ⟨behind, rfl⟩ := h
  rw [byteLength_append]
  omega

/-! ## Maximal runs -/

/-- A list that meets a condition is cut at the first place where it does. -/
theorem exists_first {α : Type} {p : α → Bool} {s : List α} (h : ∃ c ∈ s, p c) :
    ∃ front c behind, s = front ++ c :: behind ∧ p c ∧ ∀ d ∈ front, p d = false := by
  obtain ⟨c, hfind⟩ := Option.isSome_iff_exists.mp (List.find?_isSome.mpr h)
  obtain ⟨hc, front, behind, hs, hfront⟩ := List.find?_eq_some_iff_append.mp hfind
  exact ⟨front, c, behind, hs, hc, by simpa using hfront⟩

theorem dropWhile_eq_self {α : Type} {p : α → Bool} {s : List α}
    (h : ∀ c ∈ s.head?, p c = false) : s.dropWhile p = s := by
  cases s with
  | nil => rfl
  | cons c s =>
      have hc : p c = false := h c rfl
      simp [hc]

theorem dropWhile_append_stop {α : Type} {p : α → Bool} {s rest : List α} (hs : ∀ c ∈ s, p c)
    (hrest : ∀ c ∈ rest.head?, p c = false) : (s ++ rest).dropWhile p = rest := by
  rw [List.dropWhile_append_of_pos hs, dropWhile_eq_self hrest]

theorem takeWhile_append_stop {α : Type} {p : α → Bool} {s rest : List α} (hs : ∀ c ∈ s, p c)
    (hrest : ∀ c ∈ rest.head?, p c = false) : (s ++ rest).takeWhile p = s := by
  rw [List.takeWhile_append_of_pos hs]
  cases rest with
  | nil => simp
  | cons c rest =>
      have hc : p c = false := hrest c rfl
      simp [hc]

theorem takeWhile_append_cons {α : Type} {p : α → Bool} {s : List α} {c : α}
    (hs : ∀ d ∈ s, p d) (hc : p c = false) (rest : List α) :
    (s ++ c :: rest).takeWhile p = s := by
  apply takeWhile_append_stop hs
  intro d hd
  cases hd
  exact hc

theorem dropWhile_append_cons {α : Type} {p : α → Bool} {s : List α} {c : α}
    (hs : ∀ d ∈ s, p d) (hc : p c = false) (rest : List α) :
    (s ++ c :: rest).dropWhile p = c :: rest := by
  apply dropWhile_append_stop hs
  intro d hd
  cases hd
  exact hc

theorem skipBlanks_eq_self {s : Text} (h : ∀ c ∈ s.head?, isBlank c = false) :
    skipBlanks s = s :=
  dropWhile_eq_self h

theorem skipBlanks_space (s : Text) : skipBlanks (' ' :: s) = skipBlanks s := rfl

theorem suffix_dropPrefix? {front s rest : Text} (h : dropPrefix? front s = some rest) :
    rest <:+ s := by
  induction front generalizing s with
  | nil =>
      cases h
      exact List.suffix_rfl
  | cons p front ih =>
      cases s with
      | nil => cases h
      | cons c s =>
          rw [dropPrefix?] at h
          split at h
          · exact (ih h).trans (List.suffix_cons c s)
          · cases h

/-! ## Trimmed texts -/

def Trimmed (s : Text) : Prop :=
  trim s = s

instance (s : Text) : Decidable (Trimmed s) :=
  inferInstanceAs (Decidable (trim s = s))

theorem isBlank_of_isWhitespace_eq_false {c : Char} (h : isWhitespace c = false) :
    isBlank c = false := by
  by_contra hblank
  rw [Bool.not_eq_false] at hblank
  exact absurd (isWhitespace_of_isBlank hblank) (by simp [h])

theorem head?_dropWhile_of_mem {p : Char → Bool} {s : Text} {c : Char}
    (h : c ∈ (s.dropWhile p).head?) : p c = false := by
  have hnot := List.head?_dropWhile_not p s
  rw [Option.mem_def.mp h] at hnot
  exact hnot

theorem trimStart_eq_self_iff {s : Text} :
    trimStart s = s ↔ ∀ c ∈ s.head?, isWhitespace c = false := by
  constructor
  · intro h c hc
    rw [← h] at hc
    exact head?_dropWhile_of_mem hc
  · exact dropWhile_eq_self

theorem trimEnd_eq_self_iff {s : Text} :
    trimEnd s = s ↔ ∀ c ∈ s.getLast?, isWhitespace c = false := by
  have hreverse : trimEnd s = s ↔ trimStart s.reverse = s.reverse := by
    unfold trimEnd dropEndWhile trimStart
    rw [List.reverse_eq_iff]
  rw [hreverse, trimStart_eq_self_iff, List.head?_reverse]

theorem exists_trimEnd_append (s : Text) :
    ∃ spaces, s = trimEnd s ++ spaces ∧ ∀ c ∈ spaces, isWhitespace c := by
  refine ⟨(s.reverse.takeWhile isWhitespace).reverse, ?_, ?_⟩
  · rw [trimEnd, dropEndWhile, ← List.reverse_append, List.takeWhile_append_dropWhile,
      List.reverse_reverse]
  · intro c hc
    exact List.mem_takeWhile_imp (List.mem_reverse.mp hc)

theorem exists_blank_around_trim (s : Text) :
    ∃ before after, s = before ++ (trim s ++ after) ∧ isBlankLine before ∧ isBlankLine after := by
  obtain ⟨after, hafter, hspaces⟩ := exists_trimEnd_append (trimStart s)
  refine ⟨s.takeWhile isWhitespace, after, ?_, ?_, List.all_eq_true.mpr hspaces⟩
  · calc
      s = s.takeWhile isWhitespace ++ trimStart s := List.takeWhile_append_dropWhile.symm
      _ = s.takeWhile isWhitespace ++ (trim s ++ after) := by rw [trim, ← hafter]
  · exact List.all_eq_true.mpr fun _ hc => List.mem_takeWhile_imp hc

theorem prefix_trimEnd (s : Text) : trimEnd s <+: s := by
  obtain ⟨spaces, hspaces, -⟩ := exists_trimEnd_append s
  exact ⟨spaces, hspaces.symm⟩

theorem infix_trim (s : Text) : trim s <:+: s :=
  (prefix_trimEnd (trimStart s)).isInfix.trans (List.dropWhile_suffix _).isInfix

theorem trimmed_of_edges {s : Text} (hhead : ∀ c ∈ s.head?, isWhitespace c = false)
    (hlast : ∀ c ∈ s.getLast?, isWhitespace c = false) : Trimmed s := by
  rw [Trimmed, trim, trimStart_eq_self_iff.mpr hhead, trimEnd_eq_self_iff.mpr hlast]

theorem trimmed_of_ends {s : Text} {c d : Char} (hhead : s.head? = some c)
    (hlast : s.getLast? = some d) (hc : isWhitespace c = false) (hd : isWhitespace d = false) :
    Trimmed s := by
  apply trimmed_of_edges
  · rw [hhead]
    rintro _ ⟨⟩
    exact hc
  · rw [hlast]
    rintro _ ⟨⟩
    exact hd

theorem trimmed_trim (s : Text) : Trimmed (trim s) := by
  apply trimmed_of_edges
  · intro c hc
    obtain ⟨spaces, hstart, -⟩ := exists_trimEnd_append (trimStart s)
    have hhead : c ∈ (trimStart s).head? := by
      rw [hstart, List.head?_append, ← trim, Option.mem_def.mp hc]
      rfl
    exact head?_dropWhile_of_mem hhead
  · intro c hc
    rw [trim, trimEnd, dropEndWhile, List.getLast?_reverse] at hc
    exact head?_dropWhile_of_mem hc

theorem Trimmed.trimStart_eq {s : Text} (h : Trimmed s) : trimStart s = s := by
  have hle : s.length ≤ (trimStart s).length := by
    calc
      s.length = (trim s).length := by rw [h]
      _ ≤ (trimStart s).length := length_trimEnd_le _
  exact List.Sublist.eq_of_length_le (List.dropWhile_sublist _) hle

theorem Trimmed.trimEnd_eq {s : Text} (h : Trimmed s) : trimEnd s = s := by
  have htrim : trim s = s := h
  rwa [trim, h.trimStart_eq] at htrim

theorem Trimmed.head {s : Text} (h : Trimmed s) : ∀ c ∈ s.head?, isWhitespace c = false :=
  trimStart_eq_self_iff.mp h.trimStart_eq

theorem Trimmed.last {s : Text} (h : Trimmed s) :
    ∀ c ∈ s.getLast?, isWhitespace c = false :=
  trimEnd_eq_self_iff.mp h.trimEnd_eq

theorem Trimmed.skipBlanks_eq {s : Text} (h : Trimmed s) : skipBlanks s = s :=
  skipBlanks_eq_self fun c hc => isBlank_of_isWhitespace_eq_false (h.head c hc)

theorem trim_space (s : Text) : trim (' ' :: s) = trim s := rfl

theorem trim_whitespace_append {spaces : Text} (h : ∀ c ∈ spaces, isWhitespace c) (s : Text) :
    trim (spaces ++ s) = trim s := by
  rw [trim, trimStart, List.dropWhile_append_of_pos h]
  rfl

theorem trim_of_isBlankLine {s : Text} (h : isBlankLine s) : trim s = [] := by
  have htrim := trim_whitespace_append (List.all_eq_true.mp h) []
  rwa [List.append_nil] at htrim

theorem trimEnd_append_of_isBlankLine (s : Text) {t : Text} (h : isBlankLine t) :
    trimEnd (s ++ t) = trimEnd s := by
  rw [trimEnd, dropEndWhile, List.reverse_append, List.dropWhile_append_of_pos]
  · rfl
  · exact fun c hc => List.all_eq_true.mp h c (List.mem_reverse.mp hc)

theorem trimEnd_of_isBlankLine {s : Text} (h : isBlankLine s) : trimEnd s = [] :=
  trimEnd_append_of_isBlankLine [] h

theorem trimmed_nil : Trimmed [] := rfl

theorem trimEnd_of_suffix {s rest : Text} (h : trimEnd s = s) (hsuffix : rest <:+ s) :
    trimEnd rest = rest := by
  obtain ⟨front, rfl⟩ := hsuffix
  apply trimEnd_eq_self_iff.mpr
  intro c hc
  apply trimEnd_eq_self_iff.mp h c
  have hne : rest ≠ [] := by
    rintro rfl
    cases hc
  rwa [List.getLast?_append_of_ne_nil front hne]

theorem prefix_trimEnd_append {s : Text} (hs : trimEnd s = s) (t : Text) :
    s <+: trimEnd (s ++ t) := by
  rw [trimEnd, dropEndWhile, List.reverse_append, List.dropWhile_append]
  split
  · have hreverse : (s.reverse.dropWhile isWhitespace).reverse = s := hs
    rw [hreverse]
  · rw [List.reverse_append, List.reverse_reverse]
    exact List.prefix_append _ _

theorem suffix_trimStart_append {t : Text} (ht : trimStart t = t) (s : Text) :
    t <:+ trimStart (s ++ t) := by
  rw [trimStart, List.dropWhile_append]
  split
  · have hkeep : t.dropWhile isWhitespace = t := ht
    rw [hkeep]
  · exact List.suffix_append _ _

theorem Trimmed.infix_trimEnd {w s : Text} (hw : Trimmed w) (h : w <:+: s) :
    w <:+: trimEnd s := by
  by_cases hne : w = []
  · rw [hne]
    exact List.nil_infix
  · obtain ⟨front, back, rfl⟩ := h
    have hkeep : trimEnd (front ++ w) = front ++ w := by
      apply trimEnd_eq_self_iff.mpr
      rw [List.getLast?_append_of_ne_nil _ hne]
      exact hw.last
    exact (List.suffix_append front w).isInfix.trans (prefix_trimEnd_append hkeep back).isInfix

/-- Trimming around a trimmed text leaves it where it is. -/
theorem Trimmed.infix_trim {w s : Text} (hw : Trimmed w) (h : w <:+: s) : w <:+: trim s := by
  by_cases hne : w = []
  · rw [hne]
    exact List.nil_infix
  · obtain ⟨front, back, rfl⟩ := h
    have hkeep : trimStart (w ++ back) = w ++ back := by
      apply trimStart_eq_self_iff.mpr
      rw [List.head?_append_of_ne_nil _ hne]
      exact hw.head
    apply hw.infix_trimEnd
    rw [List.append_assoc]
    exact (List.prefix_append w back).isInfix.trans (suffix_trimStart_append hkeep front).isInfix

/-- A trimmed text in front stays, and at the end only whitespace is lost. -/
theorem Trimmed.exists_trim_append {s : Text} (hs : Trimmed s) (hne : s ≠ []) (t : Text) :
    ∃ rest, trim (s ++ t) = s ++ rest ∧ rest <+: t := by
  have hstart : trimStart (s ++ t) = s ++ t := by
    apply trimStart_eq_self_iff.mpr
    rw [List.head?_append_of_ne_nil _ hne]
    exact hs.head
  obtain ⟨rest, hrest⟩ := prefix_trimEnd_append hs.trimEnd_eq t
  obtain ⟨spaces, hspaces, -⟩ := exists_trimEnd_append (s ++ t)
  rw [← hrest, List.append_assoc] at hspaces
  refine ⟨rest, ?_, spaces, (List.append_cancel_left hspaces).symm⟩
  rw [trim, hstart, hrest]

/-- A text is trimmed if it begins with a trimmed one and ends with a trimmed one. -/
theorem Trimmed.append {s t : Text} (hs : Trimmed s) (ht : Trimmed t) (hsne : s ≠ [])
    (htne : t ≠ []) (between : Text) : Trimmed (s ++ (between ++ t)) := by
  apply trimmed_of_edges
  · rw [List.head?_append_of_ne_nil _ hsne]
    exact hs.head
  · rw [← List.append_assoc, List.getLast?_append_of_ne_nil _ htne]
    exact ht.last

/-! ## Words -/

/-- A text without whitespace. -/
def IsWord (s : Text) : Prop :=
  ∀ c ∈ s, isWhitespace c = false

instance (s : Text) : Decidable (IsWord s) :=
  decidable_of_iff (s.all fun c => !isWhitespace c) (by simp [IsWord])

theorem IsWord.trimmed {s : Text} (h : IsWord s) : Trimmed s :=
  trimmed_of_edges (fun c hc => h c (List.mem_of_mem_head? hc))
    fun c hc => h c (List.mem_of_getLast? hc)

theorem IsWord.not_isBlank {s : Text} (h : IsWord s) : ∀ c ∈ s, !isBlank c := by
  intro c hc
  simp [isBlank_of_isWhitespace_eq_false (h c hc)]

theorem isBlankLine_eq_false {s : Text} (h : Trimmed s) (hne : s ≠ []) :
    isBlankLine s = false := by
  cases s with
  | nil => exact absurd rfl hne
  | cons c s =>
      have hc := h.head c rfl
      simp [isBlankLine, hc]

/-! ## Joined parts -/

@[simp] theorem join_singleton (separator part : Text) : join separator [part] = part :=
  List.intercalate_singleton

theorem join_cons_cons (separator part next : Text) (parts : List Text) :
    join separator (part :: next :: parts) =
      part ++ (separator ++ join separator (next :: parts)) := by
  rw [join, List.intercalate_cons_cons, List.append_assoc]
  rfl

theorem join_cons_of_ne_nil (separator part : Text) {parts : List Text} (h : parts ≠ []) :
    join separator (part :: parts) = part ++ (separator ++ join separator parts) := by
  obtain ⟨next, others, rfl⟩ := List.exists_cons_of_ne_nil h
  exact join_cons_cons separator part next others

theorem join_append {separator : Text} {front back : List Text} (hfront : front ≠ [])
    (hback : back ≠ []) :
    join separator (front ++ back) =
      join separator front ++ (separator ++ join separator back) := by
  induction front with
  | nil => exact absurd rfl hfront
  | cons part front ih =>
      cases front with
      | nil => rw [join_singleton, List.singleton_append, join_cons_of_ne_nil _ _ hback]
      | cons next front =>
          have hrest := ih (by simp)
          simp only [List.cons_append] at hrest ⊢
          rw [join_cons_cons, hrest, join_cons_cons]
          simp only [List.append_assoc]

theorem getLast?_join (separator : Text) {last : Text} {parts : List Text}
    (hlast : parts.getLast? = some last) (hne : last ≠ []) :
    (join separator parts).getLast? = last.getLast? ∧ join separator parts ≠ [] := by
  induction parts with
  | nil => cases hlast
  | cons part parts ih =>
      cases parts with
      | nil =>
          cases hlast
          rw [join_singleton]
          exact ⟨rfl, hne⟩
      | cons next parts =>
          rw [List.getLast?_cons_cons] at hlast
          obtain ⟨heq, hjoin⟩ := ih hlast
          have hbehind : separator ++ join separator (next :: parts) ≠ [] := by
            simp [hjoin]
          rw [join_cons_cons, List.getLast?_append_of_ne_nil _ hbehind,
            List.getLast?_append_of_ne_nil _ hjoin]
          exact ⟨heq, by simp [hjoin]⟩

theorem infix_join {separator part : Text} {parts : List Text} (h : part ∈ parts) :
    part <:+: join separator parts := by
  induction parts with
  | nil => cases h
  | cons first parts ih =>
      cases parts with
      | nil =>
          rw [List.mem_singleton.mp h, join_singleton]
      | cons next parts =>
          rw [join_cons_cons]
          rcases List.mem_cons.mp h with rfl | hmem
          · exact (List.prefix_append _ _).isInfix
          · exact (ih hmem).trans ((List.suffix_append _ _).trans (List.suffix_append _ _)).isInfix

/-- Joining brings in nothing but the separator. -/
theorem not_mem_join {separator : Text} {parts : List Text} {c : Char}
    (hparts : ∀ part ∈ parts, c ∉ part) (hseparator : c ∉ separator) :
    c ∉ join separator parts := by
  induction parts with
  | nil => simp [join]
  | cons part parts ih =>
      rw [List.forall_mem_cons] at hparts
      cases parts with
      | nil => simpa [join] using hparts.1
      | cons next parts =>
          rw [join_cons_cons, List.mem_append, List.mem_append, not_or, not_or]
          exact ⟨hparts.1, hseparator, ih hparts.2⟩

theorem join_splitOn (separator : Char) (s : Text) :
    join [separator] (s.splitOn separator) = s :=
  List.intercalate_splitOn separator

theorem not_mem_of_mem_splitOn {separator : Char} {s part : Text}
    (h : part ∈ s.splitOn separator) : separator ∉ part := by
  induction s generalizing part with
  | nil =>
      rw [List.splitOn_nil, List.mem_singleton] at h
      simp [h]
  | cons c s ih =>
      rw [List.splitOn_cons_eq_if_modifyHead] at h
      split at h
      · rcases List.mem_cons.mp h with rfl | hmem
        · simp
        · exact ih hmem
      · rename_i hc
        obtain ⟨first, others, hsplit⟩ :=
          List.exists_cons_of_ne_nil (List.splitOn_ne_nil separator s)
        rw [hsplit] at h ih
        rw [List.modifyHead_cons] at h
        rcases List.mem_cons.mp h with rfl | hmem
        · have hfirst := ih List.mem_cons_self
          have hne : separator ≠ c := by
            rintro rfl
            simp at hc
          rw [List.mem_cons, not_or]
          exact ⟨hne, hfirst⟩
        · exact ih (List.mem_cons_of_mem _ hmem)

theorem mem_splitOn_or (separator : Char) {s : Text} {c : Char} (hc : c ∈ s) :
    c = separator ∨ ∃ part ∈ s.splitOn separator, c ∈ part := by
  induction s with
  | nil => cases hc
  | cons d s ih =>
      rw [List.splitOn_cons_eq_if_modifyHead]
      obtain ⟨first, others, hsplit⟩ :=
        List.exists_cons_of_ne_nil (List.splitOn_ne_nil separator s)
      rw [hsplit] at ih ⊢
      by_cases hd : d = separator
      · rw [if_pos (by simp [hd])]
        rcases List.mem_cons.mp hc with rfl | hmem
        · exact Or.inl hd
        · rcases ih hmem with heq | ⟨part, hpart, hmem⟩
          · exact Or.inl heq
          · exact Or.inr ⟨part, List.mem_cons_of_mem _ hpart, hmem⟩
      · rw [if_neg (by simpa using hd), List.modifyHead_cons]
        rcases List.mem_cons.mp hc with rfl | hmem
        · exact Or.inr ⟨c :: first, List.mem_cons_self, List.mem_cons_self⟩
        · rcases ih hmem with heq | ⟨part, hpart, hmem⟩
          · exact Or.inl heq
          · rcases List.mem_cons.mp hpart with rfl | hothers
            · exact Or.inr ⟨d :: part, List.mem_cons_self, List.mem_cons_of_mem _ hmem⟩
            · exact Or.inr ⟨part, List.mem_cons_of_mem _ hothers, hmem⟩

/-- A text of joined parts is taken apart into them by every reader that leaves the parts
whole and cuts at the commas behind them. -/
theorem map_trim_split_join {whole : Text → Prop} {split : Text → List Text}
    (hwhole : ∀ s, whole s → split s = [s])
    (hcut : ∀ s rest, whole s → split (s ++ ',' :: rest) = s :: split rest)
    (lead : Text) {part : Text} {parts : List Text} (hpart : whole (lead ++ part))
    (htrim : trim (lead ++ part) = part) (hparts : ∀ s ∈ parts, whole (' ' :: s) ∧ Trimmed s) :
    (split (lead ++ join [',', ' '] (part :: parts))).map trim = part :: parts := by
  induction parts generalizing part lead with
  | nil =>
      rw [join_singleton, hwhole _ hpart, List.map_cons, htrim, List.map_nil]
  | cons next parts ih =>
      rw [List.forall_mem_cons] at hparts
      obtain ⟨⟨hnext, hnextTrimmed⟩, hothers⟩ := hparts
      have hrest := ih [' '] hnext ((trim_space next).trans hnextTrimmed) hothers
      have hjoin : lead ++ join [',', ' '] (part :: next :: parts) =
          (lead ++ part) ++ ',' :: ([' '] ++ join [',', ' '] (next :: parts)) := by
        rw [join_cons_cons, List.append_assoc]
        rfl
      rw [hjoin, hcut _ _ hpart, List.map_cons, htrim, hrest]

end Text
end ApiManual
