import ApiManual.Proofs.Text.Edges

/-!
# Words of a text

The words of a text stand between its whitespace.  A text that is cut at whitespace has
the words of its pieces, so trimming keeps all words, and so does joining lines.
-/

namespace ApiManual
namespace Text

/-- The maximal runs of characters that are not whitespace. -/
def words (s : Text) : List Text :=
  (s.splitOnP isWhitespace).filter (!·.isEmpty)

@[simp] theorem words_nil : words [] = [] := by
  rw [words, List.splitOnP_nil]
  rfl

theorem words_append_cons {c : Char} (hc : isWhitespace c) (s t : Text) :
    words (s ++ c :: t) = words s ++ words t := by
  rw [words, List.splitOnP_append_cons s t hc, List.filter_append, words, words]

theorem words_cons {c : Char} (hc : isWhitespace c) (s : Text) : words (c :: s) = words s := by
  have hcut := words_append_cons hc [] s
  rwa [List.nil_append, words_nil, List.nil_append] at hcut

theorem words_whitespace_append {spaces : Text} (h : ∀ c ∈ spaces, isWhitespace c) (s : Text) :
    words (spaces ++ s) = words s := by
  induction spaces with
  | nil => rfl
  | cons c spaces ih =>
      rw [List.forall_mem_cons] at h
      rw [List.cons_append, words_cons h.1, ih h.2]

theorem words_append_whitespace {spaces : Text} (h : ∀ c ∈ spaces, isWhitespace c) (s : Text) :
    words (s ++ spaces) = words s := by
  cases spaces with
  | nil => rw [List.append_nil]
  | cons c spaces =>
      rw [List.forall_mem_cons] at h
      have hspaces := words_whitespace_append h.2 []
      rw [List.append_nil, words_nil] at hspaces
      rw [words_append_cons h.1, hspaces, List.append_nil]

/-- A text that begins with a visible character has a word. -/
theorem words_ne_nil {c : Char} (hc : isWhitespace c = false) (s : Text) :
    words (c :: s) ≠ [] := by
  obtain ⟨first, others, hsplit⟩ :=
    List.exists_cons_of_ne_nil (List.splitOnP_ne_nil isWhitespace s)
  rw [words, List.splitOnP_cons_eq_if_modifyHead, hsplit]
  simp [hc]

theorem words_eq_nil_iff {s : Text} : words s = [] ↔ isBlankLine s := by
  induction s with
  | nil => simp [isBlankLine]
  | cons c s ih =>
      cases hc : isWhitespace c with
      | true =>
          rw [words_cons hc, ih]
          simp [isBlankLine, hc]
      | false => simp [words_ne_nil hc, isBlankLine, hc]

/-! ## Trimming and joining -/

theorem words_trimStart (s : Text) : words (trimStart s) = words s := by
  have hfront : ∀ c ∈ s.takeWhile isWhitespace, isWhitespace c :=
    fun _ hc => List.mem_takeWhile_imp hc
  have happend := words_whitespace_append hfront (s.dropWhile isWhitespace)
  rw [List.takeWhile_append_dropWhile] at happend
  exact happend.symm

theorem words_trimEnd (s : Text) : words (trimEnd s) = words s := by
  obtain ⟨spaces, hs, hspaces⟩ := exists_trimEnd_append s
  calc
    words (trimEnd s) = words (trimEnd s ++ spaces) :=
      (words_append_whitespace hspaces _).symm
    _ = words s := by rw [← hs]

theorem words_trim (s : Text) : words (trim s) = words s := by
  rw [trim, words_trimEnd, words_trimStart]

theorem trim_eq_nil_iff {s : Text} : trim s = [] ↔ isBlankLine s := by
  constructor
  · intro h
    rw [← words_eq_nil_iff, ← words_trim, h, words_nil]
  · exact trim_of_isBlankLine

theorem words_join {separator : Char} (h : isWhitespace separator) (parts : List Text) :
    words (join [separator] parts) = parts.flatMap words := by
  induction parts with
  | nil => exact words_nil
  | cons part parts ih =>
      cases parts with
      | nil => rw [join_singleton, List.flatMap_singleton]
      | cons next parts =>
          rw [join_cons_cons, List.singleton_append, words_append_cons h, ih]
          exact List.flatMap_cons.symm

theorem isBlankLine_join {separator : Char} (h : isWhitespace separator) {parts : List Text}
    (hparts : ∀ part ∈ parts, isBlankLine part) : isBlankLine (join [separator] parts) := by
  rw [← words_eq_nil_iff, words_join h, List.flatMap_eq_nil_iff]
  exact fun part hpart => words_eq_nil_iff.mpr (hparts part hpart)

theorem isBlankLine_trimEnd (s : Text) : isBlankLine (trimEnd s) = isBlankLine s := by
  rw [Bool.eq_iff_iff, ← words_eq_nil_iff, words_trimEnd, words_eq_nil_iff]

/-! ## First and last lines -/

theorem exists_first_line {s : Text} {c : Char} (hc : s.head? = some c) (hfeed : c ≠ '\n') :
    ∃ first, (s.splitOn '\n').head? = some first ∧ c ∈ first := by
  obtain ⟨behind, rfl⟩ := List.head?_eq_some_iff.mp hc
  obtain ⟨piece, pieces, hsplit⟩ :=
    List.exists_cons_of_ne_nil (List.splitOn_ne_nil '\n' behind)
  refine ⟨c :: piece, ?_, List.mem_cons_self⟩
  rw [List.splitOn_cons_eq_if_modifyHead, if_neg (by simpa using hfeed), hsplit]
  rfl

theorem exists_last_line {s : Text} {c : Char} (hc : s.getLast? = some c) (hfeed : c ≠ '\n') :
    ∃ last, (s.splitOn '\n').getLast? = some last ∧ c ∈ last := by
  induction s with
  | nil => cases hc
  | cons d s ih =>
      cases s with
      | nil =>
          rw [List.getLast?_singleton, Option.some_inj] at hc
          subst hc
          refine ⟨[d], ?_, List.mem_cons_self⟩
          rw [List.splitOn_cons_eq_if_modifyHead, if_neg (by simpa using hfeed)]
          rfl
      | cons e s =>
          rw [List.getLast?_cons_cons] at hc
          obtain ⟨last, hlast, hmem⟩ := ih hc
          obtain ⟨piece, pieces, hsplit⟩ :=
            List.exists_cons_of_ne_nil (List.splitOn_ne_nil '\n' (e :: s))
          rw [List.splitOn_cons_eq_if_modifyHead]
          rw [hsplit] at hlast ⊢
          split
          · exact ⟨last, hlast, hmem⟩
          · rw [List.modifyHead_cons]
            cases pieces with
            | nil =>
                cases hlast
                exact ⟨d :: piece, rfl, List.mem_cons_of_mem d hmem⟩
            | cons next pieces => exact ⟨last, hlast, hmem⟩

/-- The lines at either end of the text are not blank. -/
def NoBlankEnds (s : Text) : Prop :=
  (∀ line ∈ (s.splitOn '\n').head?, isBlankLine line = false) ∧
    ∀ line ∈ (s.splitOn '\n').getLast?, isBlankLine line = false

theorem isBlankLine_eq_false_of_mem {c : Char} {line : Text} (hmem : c ∈ line)
    (hc : isWhitespace c = false) : isBlankLine line = false := by
  cases hblank : isBlankLine line with
  | false => rfl
  | true =>
      have hspace := List.all_eq_true.mp hblank c hmem
      rw [hc] at hspace
      cases hspace

theorem Trimmed.noBlankEnds {s : Text} (h : Trimmed s) (hne : s ≠ []) : NoBlankEnds s := by
  have hfeed : ∀ c, isWhitespace c = false → c ≠ '\n' := by
    intro c hc heq
    rw [heq] at hc
    cases hc
  constructor
  · intro line hline
    have hc := h.head _ (List.head?_eq_some_head hne)
    obtain ⟨first, hfirst, hmem⟩ := exists_first_line (List.head?_eq_some_head hne) (hfeed _ hc)
    cases hline.symm.trans hfirst
    exact isBlankLine_eq_false_of_mem hmem hc
  · intro line hline
    have hc := h.last _ (List.getLast?_eq_some_getLast hne)
    obtain ⟨last, hlast, hmem⟩ :=
      exists_last_line (List.getLast?_eq_some_getLast hne) (hfeed _ hc)
    cases hline.symm.trans hlast
    exact isBlankLine_eq_false_of_mem hmem hc

end Text
end ApiManual
