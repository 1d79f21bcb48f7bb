import ApiManual.Proofs.Text.Words
import ApiManual.Text.Indent
import Mathlib.Data.List.Forall2
import Mathlib.Order.Bounds.Basic

/-!
# Shared indentation

The visible lines of a text share some indentation, and taking it off leaves the text
flush.  Blank lines take no part in this: those inside become empty, and those at either
end are lost.  A flush text stays as it is, and a margin in front of all lines has no
effect.
-/

namespace ApiManual
namespace Text

/-! ## Blanks in front of a line -/

/-- The first `n` bytes of the line are blanks, and `rest` is what stands behind them. -/
def IndentedBy (n : ℕ) (line rest : Text) : Prop :=
  ∃ blanks, line = blanks ++ rest ∧ (∀ c ∈ blanks, isBlank c) ∧ byteLength blanks = n

theorem byteLength_of_blanks {blanks : Text} (h : ∀ c ∈ blanks, isBlank c) :
    byteLength blanks = blanks.length := by
  induction blanks with
  | nil => rfl
  | cons c blanks ih =>
      rw [List.forall_mem_cons] at h
      have hc : c.utf8Size = 1 := by
        have hblank := h.1
        simp only [isBlank, Bool.or_eq_true, decide_eq_true_eq] at hblank
        rcases hblank with rfl | rfl <;> rfl
      rw [byteLength, ih h.2, hc, List.length_cons, Nat.add_comm]

theorem indent_append {margin : Text} (h : ∀ c ∈ margin, isBlank c) (line : Text) :
    indent (margin ++ line) = margin.length + indent line := by
  rw [indent, List.takeWhile_append_of_pos h, List.length_append, indent]

theorem indentedBy_iff {n : ℕ} {line rest : Text} :
    IndentedBy n line rest ↔ n ≤ indent line ∧ rest = line.drop n := by
  constructor
  · rintro ⟨blanks, rfl, hblanks, rfl⟩
    rw [byteLength_of_blanks hblanks, indent_append hblanks, List.drop_left]
    exact ⟨Nat.le_add_right _ _, rfl⟩
  · rintro ⟨hn, rfl⟩
    have hrun : line.take n <+: line.takeWhile isBlank :=
      List.prefix_of_prefix_length_le (List.take_prefix n line) (List.takeWhile_prefix _)
        ((List.length_take_le n line).trans hn)
    have hblanks : ∀ c ∈ line.take n, isBlank c :=
      fun c hc => List.mem_takeWhile_imp (hrun.subset hc)
    have hlength : n ≤ line.length := hn.trans (List.takeWhile_prefix _).length_le
    refine ⟨line.take n, (List.take_append_drop n line).symm, hblanks, ?_⟩
    rw [byteLength_of_blanks hblanks, List.length_take_of_le hlength]

theorem isBlankLine_append_blanks {margin : Text} (h : ∀ c ∈ margin, isBlank c) (line : Text) :
    isBlankLine (margin ++ line) = isBlankLine line := by
  have hmargin : margin.all isWhitespace :=
    List.all_eq_true.mpr fun c hc => isWhitespace_of_isBlank (h c hc)
  rw [isBlankLine, List.all_append, hmargin, Bool.true_and, isBlankLine]

theorem indent_append_of_visible {s : Text} (hs : isBlankLine s = false) (t : Text) :
    indent (s ++ t) = indent s := by
  induction s with
  | nil => cases hs
  | cons c s ih =>
      unfold indent at ih ⊢
      rw [List.cons_append, List.takeWhile_cons, List.takeWhile_cons]
      cases hc : isBlank c with
      | false => rfl
      | true =>
          have hvisible : isBlankLine s = false := by
            simpa [isBlankLine, isWhitespace_of_isBlank hc] using hs
          exact congrArg (· + 1) (ih hvisible)

theorem indent_trimEnd {s : Text} (hs : isBlankLine s = false) : indent (trimEnd s) = indent s := by
  obtain ⟨spaces, hspaces, -⟩ := exists_trimEnd_append s
  have hvisible : isBlankLine (trimEnd s) = false := by rw [isBlankLine_trimEnd, hs]
  have happend := indent_append_of_visible hvisible spaces
  rwa [← hspaces, eq_comm] at happend

/-! ## The common indentation -/

theorem isGreatest_commonIndent {lines : List Text}
    (h : ∃ line ∈ lines, isBlankLine line = false) :
    IsGreatest {n | ∀ line ∈ lines, isBlankLine line = false → n ≤ indent line}
      (commonIndent lines) := by
  have hmem : ∀ line, line ∈ lines ∧ isBlankLine line = false ↔
      line ∈ lines.filter (!isBlankLine ·) := by
    simp [List.mem_filter]
  obtain ⟨visible, hvisible⟩ := h
  unfold commonIndent
  cases hmin : ((lines.filter (!isBlankLine ·)).map indent).min? with
  | none =>
      rw [List.min?_eq_none_iff, List.map_eq_nil_iff] at hmin
      rw [hmem, hmin] at hvisible
      cases hvisible
  | some least =>
      obtain ⟨hleast, hle⟩ := List.min?_eq_some_iff.mp hmin
      obtain ⟨line, hline, rfl⟩ := List.mem_map.mp hleast
      constructor
      · intro other hother hblank
        exact hle _ (List.mem_map_of_mem ((hmem other).mp ⟨hother, hblank⟩))
      · intro n hn
        have hfirst := (hmem line).mpr hline
        exact hn line hfirst.1 hfirst.2

theorem commonIndent_le {lines : List Text} (h : ∃ line ∈ lines, isBlankLine line = false)
    {line : Text} (hline : line ∈ lines) (hvisible : isBlankLine line = false) :
    commonIndent lines ≤ indent line :=
  (isGreatest_commonIndent h).1 line hline hvisible

theorem commonIndent_eq_zero {lines : List Text}
    (h : ∃ line ∈ lines, isBlankLine line = false ∧ indent line = 0) : commonIndent lines = 0 := by
  obtain ⟨line, hline, hvisible, hindent⟩ := h
  have hle := commonIndent_le ⟨line, hline, hvisible⟩ hline hvisible
  omega

/-- What a line becomes when `n` characters are taken off its front. -/
def flushLine (n : ℕ) (line : Text) : Text :=
  trimEnd (line.drop n)

theorem flushLine_of_isBlankLine {line : Text} (h : isBlankLine line) (n : ℕ) :
    flushLine n line = [] := by
  apply trimEnd_of_isBlankLine
  exact List.all_eq_true.mpr fun c hc => List.all_eq_true.mp h c (List.mem_of_mem_drop hc)

theorem isBlankLine_flushLine {n : ℕ} {line : Text} (h : n ≤ indent line) :
    isBlankLine (flushLine n line) = isBlankLine line := by
  obtain ⟨blanks, hline, hblanks, -⟩ := indentedBy_iff.mpr ⟨h, rfl⟩
  calc
    isBlankLine (flushLine n line) = isBlankLine (line.drop n) := isBlankLine_trimEnd _
    _ = isBlankLine line := by rw [← isBlankLine_append_blanks hblanks, ← hline]

theorem indent_flushLine {n : ℕ} {line : Text} (h : n ≤ indent line)
    (hline : isBlankLine line = false) : n + indent (flushLine n line) = indent line := by
  obtain ⟨blanks, heq, hblanks, hbytes⟩ := indentedBy_iff.mpr ⟨h, rfl⟩
  have hrest : isBlankLine (line.drop n) = false := by
    rw [← isBlankLine_append_blanks hblanks, ← heq, hline]
  rw [byteLength_of_blanks hblanks] at hbytes
  calc
    n + indent (flushLine n line) = blanks.length + indent (line.drop n) := by
      rw [flushLine, indent_trimEnd hrest, hbytes]
    _ = indent line := by rw [← indent_append hblanks, ← heq]

/-! ## The lines between the blank ends -/

/-- The lines from the first one that is not blank to the last one. -/
structure VisibleSpan (lines inner : List Text) : Prop where
  exists_around : ∃ front behind, lines = front ++ (inner ++ behind) ∧
    (∀ line ∈ front, isBlankLine line) ∧ ∀ line ∈ behind, isBlankLine line
  ne_nil : inner ≠ []
  first : ∀ line ∈ inner.head?, isBlankLine line = false
  last : ∀ line ∈ inner.getLast?, isBlankLine line = false

theorem exists_first_visible {lines : List Text} (h : ∃ line ∈ lines, isBlankLine line = false) :
    ∃ front line behind, lines = front ++ line :: behind ∧ isBlankLine line = false ∧
      ∀ blank ∈ front, isBlankLine blank := by
  have hvisible : ∃ line ∈ lines, !isBlankLine line := by simpa using h
  obtain ⟨front, line, behind, hlines, hline, hfront⟩ := exists_first hvisible
  exact ⟨front, line, behind, hlines, by simpa using hline, by simpa using hfront⟩

theorem exists_visibleSpan {lines : List Text} (h : ∃ line ∈ lines, isBlankLine line = false) :
    ∃ inner, VisibleSpan lines inner := by
  obtain ⟨front, first, rest, rfl, hfirst, hfront⟩ := exists_first_visible h
  have hreverse : ∃ line ∈ (first :: rest).reverse, isBlankLine line = false :=
    ⟨first, by simp, hfirst⟩
  obtain ⟨behind, last, inside, hrest, hlast, hbehind⟩ := exists_first_visible hreverse
  have hcut : first :: rest = (inside.reverse ++ [last]) ++ behind.reverse := by
    rw [← List.reverse_reverse (first :: rest), hrest]
    simp
  refine ⟨inside.reverse ++ [last], ⟨front, behind.reverse, by rw [hcut], hfront, ?_⟩,
    by simp, ?_, ?_⟩
  · exact fun line hline => hbehind line (List.mem_reverse.mp hline)
  · have hhead : (inside.reverse ++ [last]).head? = some first := by
      rw [← List.head?_append_of_ne_nil _ (by simp), ← hcut]
      rfl
    rw [hhead]
    rintro _ ⟨⟩
    exact hfirst
  · rw [List.getLast?_concat]
    rintro _ ⟨⟩
    exact hlast

namespace VisibleSpan

variable {lines inner : List Text}

theorem exists_visible (h : VisibleSpan lines inner) :
    ∃ line ∈ inner, isBlankLine line = false := by
  obtain ⟨line, rest, rfl⟩ := List.exists_cons_of_ne_nil h.ne_nil
  exact ⟨line, List.mem_cons_self, h.first line rfl⟩

theorem subset (h : VisibleSpan lines inner) : inner ⊆ lines := by
  obtain ⟨front, behind, rfl, -, -⟩ := h.exists_around
  exact fun line hline => by simp [hline]

theorem filter_eq (h : VisibleSpan lines inner) :
    lines.filter (!isBlankLine ·) = inner.filter (!isBlankLine ·) := by
  obtain ⟨front, behind, rfl, hfront, hbehind⟩ := h.exists_around
  have hnone : ∀ blanks : List Text, (∀ line ∈ blanks, isBlankLine line) →
      blanks.filter (!isBlankLine ·) = [] := by
    intro blanks hblanks
    rw [List.filter_eq_nil_iff]
    simpa using hblanks
  rw [List.filter_append, List.filter_append, hnone front hfront, hnone behind hbehind,
    List.nil_append, List.append_nil]

theorem commonIndent_eq (h : VisibleSpan lines inner) :
    commonIndent lines = commonIndent inner := by
  rw [commonIndent, h.filter_eq, commonIndent]

theorem map (h : VisibleSpan lines inner) {f : Text → Text}
    (hf : ∀ line ∈ lines, isBlankLine (f line) = isBlankLine line) :
    VisibleSpan (lines.map f) (inner.map f) where
  exists_around := by
    obtain ⟨front, behind, rfl, hfront, hbehind⟩ := h.exists_around
    refine ⟨front.map f, behind.map f, by simp, ?_, ?_⟩
    · rw [List.forall_mem_map]
      exact fun line hline => by rw [hf line (by simp [hline]), hfront line hline]
    · rw [List.forall_mem_map]
      exact fun line hline => by rw [hf line (by simp [hline]), hbehind line hline]
  ne_nil := by simpa using h.ne_nil
  first := by
    rw [List.head?_map]
    intro line hline
    obtain ⟨source, hsource, rfl⟩ := Option.map_eq_some_iff.mp hline
    rw [hf source (h.subset (List.mem_of_mem_head? hsource)), h.first source hsource]
  last := by
    rw [List.getLast?_map]
    intro line hline
    obtain ⟨source, hsource, rfl⟩ := Option.map_eq_some_iff.mp hline
    rw [hf source (h.subset (List.mem_of_getLast? hsource)), h.last source hsource]

theorem self (h : VisibleSpan lines inner) : VisibleSpan inner inner where
  exists_around := ⟨[], [], by simp, by simp, by simp⟩
  ne_nil := h.ne_nil
  first := h.first
  last := h.last

end VisibleSpan

/-! ## Texts without their indentation -/

theorem trimEnd_join_append {front behind : List Text} (hfront : front ≠ [])
    (hbehind : ∀ line ∈ behind, isBlankLine line) :
    trimEnd (join ['\n'] (front ++ behind)) = trimEnd (join ['\n'] front) := by
  by_cases hnone : behind = []
  · rw [hnone, List.append_nil]
  · rw [join_append hfront hnone]
    exact trimEnd_append_of_isBlankLine _ (isBlankLine_join rfl hbehind)

theorem trimEnd_join {lines : List Text} {last : Text} (hlast : lines.getLast? = some last)
    (hne : last ≠ []) (htrim : trimEnd last = last) :
    trimEnd (join ['\n'] lines) = join ['\n'] lines := by
  rw [trimEnd_eq_self_iff, (getLast?_join ['\n'] hlast hne).1]
  exact trimEnd_eq_self_iff.mp htrim

theorem trimEnd_trimEnd (s : Text) : trimEnd (trimEnd s) = trimEnd s := by
  obtain ⟨spaces, hspaces, hblank⟩ := exists_trimEnd_append s
  conv_rhs => rw [hspaces]
  exact (trimEnd_append_of_isBlankLine _ (List.all_eq_true.mpr hblank)).symm

/-- The visible lines and those between them, without the indentation that they share. -/
def flushLines (inner : List Text) : List Text :=
  inner.map (flushLine (commonIndent inner))

theorem isBlankLine_flushed {lines : List Text} (h : ∃ line ∈ lines, isBlankLine line = false)
    {line : Text} (hline : line ∈ lines) :
    isBlankLine (flushLine (commonIndent lines) line) = isBlankLine line := by
  cases hblank : isBlankLine line with
  | true => rw [flushLine_of_isBlankLine hblank]; rfl
  | false => rw [isBlankLine_flushLine (commonIndent_le h hline hblank), hblank]

namespace VisibleSpan

variable {lines inner : List Text} {s : Text}

theorem flush (h : VisibleSpan lines inner) : VisibleSpan (flushLines inner) (flushLines inner) :=
  h.self.map fun _ hline => isBlankLine_flushed h.exists_visible hline

theorem unindent_eq (h : VisibleSpan (s.splitOn '\n') inner) :
    unindent s = join ['\n'] (flushLines inner) := by
  obtain ⟨front, behind, hlines, hfront, hbehind⟩ := h.exists_around
  have hstart : (s.splitOn '\n').dropWhile isBlankLine = inner ++ behind := by
    obtain ⟨first, rest, rfl⟩ := List.exists_cons_of_ne_nil h.ne_nil
    rw [hlines, List.cons_append]
    exact dropWhile_append_cons hfront (h.first first rfl) _
  have hspan : VisibleSpan (inner ++ behind) inner :=
    ⟨⟨[], behind, rfl, by simp, hbehind⟩, h.ne_nil, h.first, h.last⟩
  have hblank : ∀ line ∈ behind.map (flushLine (commonIndent inner)), isBlankLine line := by
    rw [List.forall_mem_map]
    intro line hline
    rw [flushLine_of_isBlankLine (hbehind line hline)]
    rfl
  obtain ⟨last, hlast⟩ : ∃ last, (flushLines inner).getLast? = some last :=
    ⟨_, List.getLast?_eq_some_getLast h.flush.ne_nil⟩
  have hne : last ≠ [] := by
    rintro rfl
    cases h.flush.last [] hlast
  have htrim : trimEnd last = last := by
    obtain ⟨line, -, rfl⟩ := List.mem_map.mp (List.mem_of_getLast? hlast)
    exact trimEnd_trimEnd _
  calc
    unindent s =
        trimEnd (join ['\n'] ((inner ++ behind).map (flushLine (commonIndent inner)))) := by
      simp only [unindent, hstart, hspan.commonIndent_eq]
      rfl
    _ = trimEnd (join ['\n'] (flushLines inner)) := by
      rw [List.map_append]
      exact trimEnd_join_append h.flush.ne_nil hblank
    _ = join ['\n'] (flushLines inner) := trimEnd_join hlast hne htrim

theorem splitOn_unindent (h : VisibleSpan (s.splitOn '\n') inner) :
    (unindent s).splitOn '\n' = flushLines inner := by
  have honeLine : ∀ line ∈ flushLines inner, '\n' ∉ line := by
    unfold flushLines
    rw [List.forall_mem_map]
    intro line hline hfeed
    have hsource : '\n' ∈ line := List.mem_of_mem_drop ((prefix_trimEnd _).subset hfeed)
    exact not_mem_of_mem_splitOn (h.subset hline) hsource
  rw [h.unindent_eq]
  exact List.splitOn_intercalate '\n' honeLine h.flush.ne_nil

end VisibleSpan

theorem commonIndent_flushLines {inner : List Text} (h : ∃ line ∈ inner, isBlankLine line = false) :
    commonIndent (flushLines inner) = 0 := by
  have hvisible : ∃ line ∈ flushLines inner, isBlankLine line = false := by
    obtain ⟨line, hline, hblank⟩ := h
    refine ⟨_, List.mem_map_of_mem hline, ?_⟩
    rw [isBlankLine_flushed ⟨line, hline, hblank⟩ hline, hblank]
  -- More indentation left in the flush lines would have been shared before.
  have hmore : commonIndent inner + commonIndent (flushLines inner) ≤ commonIndent inner := by
    apply (isGreatest_commonIndent h).2
    intro line hline hblank
    have hleft : commonIndent (flushLines inner) ≤ indent (flushLine (commonIndent inner) line) :=
      commonIndent_le hvisible (List.mem_map_of_mem hline)
        (by rw [isBlankLine_flushed h hline, hblank])
    have hsum := indent_flushLine (commonIndent_le h hline hblank) hblank
    omega
  omega

theorem flushLines_flushLines {inner : List Text}
    (h : ∃ line ∈ inner, isBlankLine line = false) :
    flushLines (flushLines inner) = flushLines inner := by
  rw [flushLines, commonIndent_flushLines h, flushLines, List.map_map]
  apply List.map_congr_left
  intro line _
  exact trimEnd_trimEnd _

theorem unindent_of_blank {s : Text} (h : ∀ line ∈ s.splitOn '\n', isBlankLine line) :
    unindent s = [] := by
  simp only [unindent, List.dropWhile_eq_nil_iff.mpr h]
  rfl

theorem unindent_unindent (s : Text) : unindent (unindent s) = unindent s := by
  by_cases h : ∃ line ∈ s.splitOn '\n', isBlankLine line = false
  · obtain ⟨inner, hinner⟩ := exists_visibleSpan h
    have hagain : VisibleSpan ((unindent s).splitOn '\n') (flushLines inner) := by
      rw [hinner.splitOn_unindent]
      exact hinner.flush
    rw [hagain.unindent_eq, flushLines_flushLines hinner.exists_visible, hinner.unindent_eq]
  · have hnone : unindent s = [] := unindent_of_blank (by simpa using h)
    rw [hnone]
    rfl

/-! ## Margins -/

/-- The text with a margin in front of every line. -/
def indented (margin s : Text) : Text :=
  join ['\n'] ((s.splitOn '\n').map (margin ++ ·))

theorem commonIndent_margin {margin : Text} (hmargin : ∀ c ∈ margin, isBlank c)
    {lines : List Text} (h : ∃ line ∈ lines, isBlankLine line = false) :
    commonIndent (lines.map (margin ++ ·)) = margin.length + commonIndent lines := by
  have hvisible : ∃ line ∈ lines.map (margin ++ ·), isBlankLine line = false := by
    obtain ⟨line, hline, hblank⟩ := h
    refine ⟨_, List.mem_map_of_mem hline, ?_⟩
    rw [isBlankLine_append_blanks hmargin, hblank]
  have hgreatest := isGreatest_commonIndent h
  apply (isGreatest_commonIndent hvisible).unique
  constructor
  · rw [Set.mem_ofPred_eq, List.forall_mem_map]
    intro line hline hblank
    rw [isBlankLine_append_blanks hmargin] at hblank
    have hle := hgreatest.1 line hline hblank
    rw [indent_append hmargin]
    omega
  · intro n hn
    rw [Set.mem_ofPred_eq, List.forall_mem_map] at hn
    have hle : n - margin.length ≤ commonIndent lines := by
      apply hgreatest.2
      intro line hline hblank
      have hline' := hn line hline (by rw [isBlankLine_append_blanks hmargin, hblank])
      rw [indent_append hmargin] at hline'
      omega
    omega

theorem flushLines_margin {margin : Text} (hmargin : ∀ c ∈ margin, isBlank c)
    {inner : List Text} (h : ∃ line ∈ inner, isBlankLine line = false) :
    flushLines (inner.map (margin ++ ·)) = flushLines inner := by
  rw [flushLines, commonIndent_margin hmargin h, flushLines, List.map_map]
  apply List.map_congr_left
  intro line _
  rw [Function.comp_apply, flushLine, List.drop_append, List.drop_of_length_le (by omega),
    Nat.add_sub_cancel_left, List.nil_append, flushLine]

theorem unindent_indented {margin : Text} (hmargin : ∀ c ∈ margin, isBlank c) (s : Text) :
    unindent (indented margin s) = unindent s := by
  have hfeed : '\n' ∉ margin := fun hmem => by cases hmargin '\n' hmem
  have hlines : (indented margin s).splitOn '\n' = (s.splitOn '\n').map (margin ++ ·) := by
    apply List.splitOn_intercalate '\n'
    · rw [List.forall_mem_map]
      intro line hline
      rw [List.mem_append, not_or]
      exact ⟨hfeed, not_mem_of_mem_splitOn hline⟩
    · simp
  by_cases h : ∃ line ∈ s.splitOn '\n', isBlankLine line = false
  · obtain ⟨inner, hinner⟩ := exists_visibleSpan h
    have hspan : VisibleSpan ((indented margin s).splitOn '\n') (inner.map (margin ++ ·)) := by
      rw [hlines]
      exact hinner.map fun line _ => isBlankLine_append_blanks hmargin line
    rw [hspan.unindent_eq, flushLines_margin hmargin hinner.exists_visible, hinner.unindent_eq]
  · have hblank : ∀ line ∈ s.splitOn '\n', isBlankLine line := by simpa using h
    have hblank' : ∀ line ∈ (indented margin s).splitOn '\n', isBlankLine line := by
      rw [hlines, List.forall_mem_map]
      exact fun line hline => by rw [isBlankLine_append_blanks hmargin, hblank line hline]
    rw [unindent_of_blank hblank, unindent_of_blank hblank']

/-! ## Flush texts -/

/-- The visible lines have lost the longest run of blanks that stands in front of all of
them, and the whitespace at their ends. -/
structure Flush (n : ℕ) (lines flush : List Text) : Prop where
  longest : IsGreatest
    {m | ∀ line ∈ lines, isBlankLine line = false → ∃ rest, IndentedBy m line rest} n
  visible : List.Forall₂ (fun line out => ∃ rest, IndentedBy n line rest ∧ out = trimEnd rest)
    (lines.filter (!isBlankLine ·)) (flush.filter (!isBlankLine ·))
  between : ∃ inner, VisibleSpan lines inner ∧ List.Forall₂
    (fun line out => isBlankLine out = isBlankLine line ∧ (isBlankLine line → out = [])) inner flush

theorem VisibleSpan.flush_flushLines {lines inner : List Text} (h : VisibleSpan lines inner) :
    Flush (commonIndent lines) lines (flushLines inner) where
  longest := by
    have hvisible : ∃ line ∈ lines, isBlankLine line = false := by
      obtain ⟨line, hline, hblank⟩ := h.exists_visible
      exact ⟨line, h.subset hline, hblank⟩
    simpa [indentedBy_iff] using isGreatest_commonIndent hvisible
  visible := by
    have hfilter : (flushLines inner).filter (!isBlankLine ·) =
        (inner.filter (!isBlankLine ·)).map (flushLine (commonIndent inner)) := by
      rw [flushLines, List.filter_map]
      congr 1
      apply List.filter_congr
      intro line hline
      rw [Function.comp_apply, isBlankLine_flushed h.exists_visible hline]
    rw [hfilter, h.filter_eq, h.commonIndent_eq, List.forall₂_map_right_iff, List.forall₂_same]
    intro line hline
    obtain ⟨hmem, hblank⟩ := List.mem_filter.mp hline
    have hle := commonIndent_le h.exists_visible hmem (by simpa using hblank)
    exact ⟨_, indentedBy_iff.mpr ⟨hle, rfl⟩, rfl⟩
  between := by
    refine ⟨inner, h, ?_⟩
    rw [flushLines, List.forall₂_map_right_iff, List.forall₂_same]
    intro line hline
    exact ⟨isBlankLine_flushed h.exists_visible hline,
      fun hblank => flushLine_of_isBlankLine hblank _⟩

theorem noBlankEnds_unindent (s : Text) : unindent s = [] ∨ NoBlankEnds (unindent s) := by
  by_cases h : ∃ line ∈ s.splitOn '\n', isBlankLine line = false
  · obtain ⟨inner, hinner⟩ := exists_visibleSpan h
    right
    rw [NoBlankEnds, hinner.splitOn_unindent]
    exact ⟨hinner.flush.first, hinner.flush.last⟩
  · exact .inl (unindent_of_blank (by simpa using h))

theorem trimEnd_of_mem_unindent {s line : Text} (hline : line ∈ (unindent s).splitOn '\n') :
    trimEnd line = line := by
  by_cases h : ∃ line ∈ s.splitOn '\n', isBlankLine line = false
  · obtain ⟨inner, hinner⟩ := exists_visibleSpan h
    rw [hinner.splitOn_unindent] at hline
    obtain ⟨source, -, rfl⟩ := List.mem_map.mp hline
    exact trimEnd_trimEnd _
  · rw [unindent_of_blank (by simpa using h), List.splitOn_nil, List.mem_singleton] at hline
    rw [hline]
    rfl

/-- Unindenting is idempotent and blind to margins.  The text it leaves has no blank line at
either end and no whitespace at the end of a line, and its lines are flush. -/
theorem flush_unindent (s : Text) :
    unindent (unindent s) = unindent s ∧
      (∀ margin : Text, (∀ c ∈ margin, isBlank c) → unindent (indented margin s) = unindent s) ∧
      (unindent s = [] ∨ NoBlankEnds (unindent s)) ∧
      (∀ line ∈ (unindent s).splitOn '\n', trimEnd line = line) ∧
      ((∀ line ∈ s.splitOn '\n', isBlankLine line) → unindent s = []) ∧
      ((∃ line ∈ s.splitOn '\n', isBlankLine line = false) →
        ∃ n, Flush n (s.splitOn '\n') ((unindent s).splitOn '\n')) := by
  refine ⟨unindent_unindent s, fun margin hmargin => unindent_indented hmargin s,
    noBlankEnds_unindent s, fun line hline => trimEnd_of_mem_unindent hline,
    unindent_of_blank, ?_⟩
  intro hvisible
  obtain ⟨inner, hinner⟩ := exists_visibleSpan hvisible
  rw [hinner.splitOn_unindent]
  exact ⟨_, hinner.flush_flushLines⟩

end Text
end ApiManual
