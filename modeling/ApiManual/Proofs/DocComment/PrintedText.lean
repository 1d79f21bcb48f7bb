import ApiManual.Proofs.DocComment.PrintedBlock
import ApiManual.Proofs.Text.Indent

/-!
# Printed descriptions and usage samples

A description in normal form is taken apart into its two halves as it was put together,
and a usage sample without common indentation is left as it is.
-/

namespace ApiManual
namespace DocComment

open Text

/-! ## Descriptions -/

theorem isBlankLine_nil : isBlankLine [] = true := rfl

namespace DescriptionForm

variable {summary details : Text}

theorem plainLines (h : DescriptionForm summary details) :
    ∀ line ∈ descriptionLines summary details, PlainLine line := by
  intro line hline
  unfold descriptionLines at hline
  split at hline
  · cases hline
  · rcases List.mem_cons.mp hline with rfl | hmem
    · exact h.summaryLine
    · split at hmem
      · cases hmem
      · rcases List.mem_cons.mp hmem with rfl | hmem
        · constructor
          · simp
          · rfl
          · rfl
        · exact h.detailsLines line hmem

theorem descriptions_eq (h : DescriptionForm summary details) {b : DocBlock}
    (hb : b.text = descriptionLines summary details) :
    b.descriptions = (summary, details) := by
  have htrimEnd : b.text.map trimEnd = b.text := by
    apply (List.map_congr_left _).trans (List.map_id b.text)
    intro line hline
    rw [hb] at hline
    exact (h.plainLines line hline).trimmedEnd
  unfold DocBlock.descriptions
  rw [htrimEnd, hb]
  by_cases hsummary : summary = []
  · have hdetails := h.summaryFirst hsummary
    rw [hsummary, hdetails]
    rfl
  · have hblank : isBlankLine summary = false := isBlankLine_eq_false h.summaryTrimmed hsummary
    have htrim : trim summary = summary := h.summaryTrimmed
    by_cases hdetails : details = []
    · have hlines : descriptionLines summary details = [summary] := by
        simp [descriptionLines, hsummary, hdetails]
      rw [hlines, hdetails]
      simp only [List.dropWhile_cons, hblank, Bool.false_eq_true, if_false, List.takeWhile_cons,
        Bool.not_false, if_true, List.takeWhile_nil, List.map_cons, List.map_nil, htrim,
        join_singleton]
      rfl
    · have hlines : descriptionLines summary details = summary :: [] :: details.splitOn '\n' := by
        simp [descriptionLines, hsummary, hdetails]
      have hbehind : join ['\n'] ([] :: details.splitOn '\n') = '\n' :: details := by
        rw [join, List.intercalate_cons_of_ne_nil (List.splitOn_ne_nil _ _)]
        exact congrArg ('\n' :: ·) (join_splitOn '\n' details)
      have htrimBehind : trim ('\n' :: details) = details := h.detailsTrimmed
      rw [hlines]
      simp only [List.dropWhile_cons, hblank, Bool.false_eq_true, if_false, List.takeWhile_cons,
        Bool.not_false, if_true, isBlankLine_nil, Bool.not_true, List.map_cons, List.map_nil,
        htrim, join_singleton, hbehind, htrimBehind]

end DescriptionForm

/-! ## Usage samples -/

theorem UsageForm.unindent_eq {sample : Text} (h : UsageForm sample) :
    unindent sample = sample := by
  have hspan : VisibleSpan (sample.splitOn '\n') (sample.splitOn '\n') :=
    ⟨⟨[], [], by simp, by simp, by simp⟩, List.splitOn_ne_nil '\n' sample, h.first, h.last⟩
  have hflush : flushLines (sample.splitOn '\n') = sample.splitOn '\n' := by
    rw [flushLines, commonIndent_eq_zero h.flush]
    apply (List.map_congr_left _).trans (List.map_id _)
    exact fun line hline => (h.lines line hline).trimmedEnd
  rw [hspan.unindent_eq, hflush, join_splitOn]

theorem UsageForm.ne_nil {sample : Text} (h : UsageForm sample) : sample ≠ [] := by
  rintro rfl
  cases h.first [] rfl

theorem usageSample?_eq {usage : Option Text} (h : ∀ sample ∈ usage, UsageForm sample)
    {b : DocBlock} (hb : b.usage = usage.map (·.splitOn '\n')) : b.usageSample? = usage := by
  cases usage with
  | none => simp [DocBlock.usageSample?, hb]
  | some sample =>
      have hsample := h sample rfl
      have hne : sample ≠ [] := hsample.ne_nil
      simp [DocBlock.usageSample?, hb, join_splitOn, hsample.unindent_eq, hne]

end DocComment
end ApiManual
