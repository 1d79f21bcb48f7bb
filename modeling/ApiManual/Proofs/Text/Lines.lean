import ApiManual.Proofs.Text.Edges
import ApiManual.Text.Lines

/-!
# Lines of a text

The lines of a text come from the pieces between its line feeds, one from each piece
except an empty last one.
-/

namespace ApiManual
namespace Text

/-! ## Ends of lines -/

theorem dropCarriageReturn_of_ne {line : Text} (h : line.getLast? ≠ some '\r') :
    dropCarriageReturn line = line := by
  rw [dropCarriageReturn, if_neg h]

theorem dropCarriageReturn_concat (line : Text) : dropCarriageReturn (line ++ ['\r']) = line := by
  rw [dropCarriageReturn, if_pos List.getLast?_concat, List.dropLast_concat]

theorem dropCarriageReturn_append (front : Text) {line : Text} (h : line ≠ []) :
    dropCarriageReturn (front ++ line) = front ++ dropCarriageReturn line := by
  unfold dropCarriageReturn
  rw [List.getLast?_append_of_ne_nil front h]
  split
  · exact List.dropLast_append_of_ne_nil h
  · rfl

theorem dropCarriageReturn_cons {c : Char} (hc : c ≠ '\r') (line : Text) :
    dropCarriageReturn (c :: line) = c :: dropCarriageReturn line := by
  cases line with
  | nil => exact dropCarriageReturn_of_ne (by simpa using hc)
  | cons d line => exact dropCarriageReturn_append [c] (by simp)

theorem mem_of_mem_dropCarriageReturn {line : Text} {c : Char}
    (h : c ∈ dropCarriageReturn line) : c ∈ line := by
  unfold dropCarriageReturn at h
  split at h
  · exact List.dropLast_subset line h
  · exact h

/-! ## Lines and pieces -/

theorem linesOfPieces_cons (piece : Text) {pieces : List Text} (h : pieces ≠ []) :
    linesOfPieces (piece :: pieces) = dropCarriageReturn piece :: linesOfPieces pieces := by
  cases pieces with
  | nil => exact absurd rfl h
  | cons next pieces => rfl

theorem linesOfPieces_append (front : List Text) {pieces : List Text} (h : pieces ≠ []) :
    linesOfPieces (front ++ pieces) = front.map dropCarriageReturn ++ linesOfPieces pieces := by
  induction front with
  | nil => rfl
  | cons piece front ih =>
      rw [List.cons_append, linesOfPieces_cons piece (by simp [h]), ih, List.map_cons,
        List.cons_append]

theorem lines_append_newline {line : Text} (h : '\n' ∉ line) (rest : Text) :
    lines (line ++ '\n' :: rest) = dropCarriageReturn line :: lines rest := by
  rw [lines, List.splitOn_append_cons_self_of_not_mem h,
    linesOfPieces_cons line (List.splitOn_ne_nil '\n' rest), lines]

/-- Once a line is ended, the text behind it has lines of its own. -/
theorem lines_append {source : Text} (h : source.getLast? = some '\n') (behind : Text) :
    lines (source ++ behind) = lines source ++ lines behind := by
  obtain ⟨front, rfl⟩ := List.getLast?_eq_some_iff.mp h
  have hfront : lines (front ++ ['\n']) = (front.splitOn '\n').map dropCarriageReturn := by
    rw [lines, List.splitOn_append_cons_self, List.splitOn_nil,
      linesOfPieces_append _ (List.cons_ne_nil _ _)]
    exact List.append_nil _
  rw [hfront, List.append_assoc, List.singleton_append, lines, List.splitOn_append_cons_self,
    linesOfPieces_append _ (List.splitOn_ne_nil '\n' behind), lines]

/-- A line holds nothing that its text does not hold. -/
theorem mem_of_mem_lines {s line : Text} {c : Char} (hline : line ∈ lines s) (hc : c ∈ line) :
    c ∈ s := by
  have hpieces : ∀ pieces : List Text, line ∈ linesOfPieces pieces →
      ∃ piece ∈ pieces, c ∈ piece := by
    intro pieces
    induction pieces with
    | nil =>
        intro h
        cases h
    | cons piece pieces ih =>
        intro h
        by_cases hlast : pieces = []
        · rw [hlast, linesOfPieces] at h
          split at h
          · cases h
          · exact ⟨piece, List.mem_cons_self, List.mem_singleton.mp h ▸ hc⟩
        · rw [linesOfPieces_cons piece hlast] at h
          rcases List.mem_cons.mp h with rfl | hmem
          · exact ⟨piece, List.mem_cons_self, mem_of_mem_dropCarriageReturn hc⟩
          · obtain ⟨other, hother, hin⟩ := ih hmem
            exact ⟨other, List.mem_cons_of_mem _ hother, hin⟩
  obtain ⟨piece, hpiece, hin⟩ := hpieces (s.splitOn '\n') hline
  have hinfix : piece <:+: join ['\n'] (s.splitOn '\n') := infix_join hpiece
  rw [join_splitOn] at hinfix
  exact hinfix.subset hin

/-! ## Files -/

/-- A line that comes back out of a file as it went in. -/
structure FileLine (line : Text) : Prop where
  oneLine : '\n' ∉ line
  noReturn : line.getLast? ≠ some '\r'

theorem lines_flatMap {ls : List Text} (h : ∀ line ∈ ls, FileLine line) :
    lines (ls.flatMap (· ++ ['\n'])) = ls := by
  induction ls with
  | nil => rfl
  | cons line ls ih =>
      rw [List.forall_mem_cons] at h
      rw [List.flatMap_cons, List.append_assoc, List.singleton_append,
        lines_append_newline h.1.oneLine, dropCarriageReturn_of_ne h.1.noReturn, ih h.2]

theorem fileLine_of_trimmed {line : Text} (hline : '\n' ∉ line) (htrim : trimEnd line = line) :
    FileLine line where
  oneLine := hline
  noReturn := by
    intro hlast
    have hspace := trimEnd_eq_self_iff.mp htrim '\r' hlast
    cases hspace

end Text
end ApiManual
