import ApiManual.DocComment.Block
import ApiManual.Proofs.Text.Words

/-!
# Descriptions and their words

The text of a block is cut into its first paragraph, which becomes one line, and what
stands behind it.  Blank lines and the breaks of the first paragraph are lost on the way,
but no word is.
-/

namespace ApiManual
namespace DocComment

open Text

/-! ## The first paragraph -/

/-- The first maximal run of lines that are not blank, and the lines behind it. -/
structure FirstParagraph (lines paragraph behind : List Text) : Prop where
  exists_front : ∃ front, lines = front ++ (paragraph ++ behind) ∧ ∀ line ∈ front, isBlankLine line
  filled : ∀ line ∈ paragraph, isBlankLine line = false
  maximal : ∀ line ∈ behind.head?, isBlankLine line
  first : paragraph = [] → behind = []

def visibleLines (lines : List Text) : List Text :=
  lines.dropWhile isBlankLine

def paragraph (lines : List Text) : List Text :=
  (visibleLines lines).takeWhile (!isBlankLine ·)

def behindParagraph (lines : List Text) : List Text :=
  (visibleLines lines).dropWhile (!isBlankLine ·)

theorem paragraph_append_behind (lines : List Text) :
    paragraph lines ++ behindParagraph lines = visibleLines lines :=
  List.takeWhile_append_dropWhile

theorem firstParagraph (lines : List Text) :
    FirstParagraph lines (paragraph lines) (behindParagraph lines) where
  exists_front := by
    refine ⟨lines.takeWhile isBlankLine, ?_, fun line hline => List.mem_takeWhile_imp hline⟩
    rw [paragraph_append_behind]
    exact List.takeWhile_append_dropWhile.symm
  filled := by
    intro line hline
    simpa using List.mem_takeWhile_imp hline
  maximal := by
    intro line hline
    have hnot := List.head?_dropWhile_not (!isBlankLine ·) (visibleLines lines)
    rw [behindParagraph] at hline
    rw [hline] at hnot
    simpa using hnot
  first := by
    intro hnone
    cases hvisible : visibleLines lines with
    | nil => rw [behindParagraph, hvisible, List.dropWhile_nil]
    | cons line others =>
        have hnot := List.head?_dropWhile_not isBlankLine lines
        rw [visibleLines] at hvisible
        simp only [hvisible, List.head?_cons] at hnot
        rw [paragraph, visibleLines, hvisible, List.takeWhile_cons, hnot] at hnone
        cases hnone

theorem FirstParagraph.flatMap_words {lines paragraph behind : List Text}
    (h : FirstParagraph lines paragraph behind) :
    lines.flatMap words = paragraph.flatMap words ++ behind.flatMap words := by
  obtain ⟨front, hlines, hfront⟩ := h.exists_front
  have hnone : front.flatMap words = [] :=
    List.flatMap_eq_nil_iff.mpr fun line hline => words_eq_nil_iff.mpr (hfront line hline)
  rw [hlines, List.flatMap_append, hnone, List.nil_append, List.flatMap_append]

theorem FirstParagraph.isBlankLine_of_words {lines paragraph behind : List Text}
    (h : FirstParagraph lines paragraph behind) (hwords : paragraph.flatMap words = []) :
    ∀ line ∈ lines, isBlankLine line := by
  have hnone : paragraph = [] := by
    cases paragraph with
    | nil => rfl
    | cons line others =>
        have hline := List.flatMap_eq_nil_iff.mp hwords line List.mem_cons_self
        rw [words_eq_nil_iff, h.filled line List.mem_cons_self] at hline
        cases hline
  obtain ⟨front, hlines, hfront⟩ := h.exists_front
  rw [hlines, hnone, h.first hnone, List.append_nil, List.append_nil]
  exact hfront

/-! ## Descriptions -/

/-- Trimming the ends of lines changes neither the first paragraph nor what is behind it. -/
theorem descriptions_eq_paragraph (b : DocBlock) :
    b.descriptions =
      (join [' '] ((paragraph b.text).map fun line => trim (trimEnd line)),
        trim (join ['\n'] ((behindParagraph b.text).map trimEnd))) := by
  have hblank : isBlankLine ∘ trimEnd = isBlankLine := funext isBlankLine_trimEnd
  have hvisible :
      (b.text.map trimEnd).dropWhile isBlankLine = (visibleLines b.text).map trimEnd := by
    rw [List.dropWhile_map, hblank]
    rfl
  have hfilled : (fun line => !isBlankLine line) ∘ trimEnd = fun line => !isBlankLine line :=
    funext fun line => congrArg (!·) (isBlankLine_trimEnd line)
  simp only [DocBlock.descriptions, hvisible, List.takeWhile_map, List.dropWhile_map, hfilled,
    List.map_map, Function.comp_def]
  rfl

theorem flatMap_words_map {f : Text → Text} (hf : ∀ s, words (f s) = words s)
    (lines : List Text) : (lines.map f).flatMap words = lines.flatMap words := by
  rw [List.flatMap_map]
  exact congrArg (List.flatMap · lines) (funext hf)

theorem words_summary (b : DocBlock) :
    words b.descriptions.1 = (paragraph b.text).flatMap words := by
  rw [descriptions_eq_paragraph, words_join rfl]
  exact flatMap_words_map (fun line => (words_trim _).trans (words_trimEnd line)) _

theorem words_details (b : DocBlock) :
    words b.descriptions.2 = (behindParagraph b.text).flatMap words := by
  rw [descriptions_eq_paragraph, words_trim, words_join rfl]
  exact flatMap_words_map words_trimEnd _

theorem not_mem_summary {b : DocBlock} (h : ∀ line ∈ b.text, '\n' ∉ line) :
    '\n' ∉ b.descriptions.1 := by
  rw [descriptions_eq_paragraph]
  apply not_mem_join _ (by decide)
  rw [List.forall_mem_map]
  intro line hline hfeed
  have hinside : trim (trimEnd line) <:+: line :=
    (infix_trim _).trans (prefix_trimEnd line).isInfix
  have hmem : line ∈ b.text :=
    (List.dropWhile_suffix _).subset ((List.takeWhile_prefix _).subset hline)
  exact h line hmem (hinside.subset hfeed)

/-- A text is divided into the words of its first paragraph, in one line, and the others. -/
structure Divided (lines : List Text) (summary details : Text) : Prop where
  keeps : words summary ++ words details = lines.flatMap words
  paragraph : ∃ paragraph behind, FirstParagraph lines paragraph behind ∧
    words summary = paragraph.flatMap words
  oneLine : (∀ line ∈ lines, '\n' ∉ line) → '\n' ∉ summary
  ends : details = [] ∨ NoBlankEnds details
  filled : summary = [] → ∀ line ∈ lines, isBlankLine line

theorem divided_descriptions (b : DocBlock) :
    Divided b.text b.descriptions.1 b.descriptions.2 := by
  have hparagraph := firstParagraph b.text
  have htrimmed : Trimmed b.descriptions.2 := by
    rw [descriptions_eq_paragraph]
    exact trimmed_trim _
  constructor
  · rw [words_summary, words_details, hparagraph.flatMap_words]
  · exact ⟨_, _, hparagraph, words_summary b⟩
  · exact not_mem_summary
  · by_cases hnone : b.descriptions.2 = []
    · exact .inl hnone
    · exact .inr (htrimmed.noBlankEnds hnone)
  · intro hnone
    apply hparagraph.isBlankLine_of_words
    rw [← words_summary, hnone, words_nil]

end DocComment
end ApiManual
