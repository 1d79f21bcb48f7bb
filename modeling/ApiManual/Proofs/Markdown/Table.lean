import ApiManual.Markdown
import ApiManual.Proofs.Result
import ApiManual.Proofs.Text.Padding
import ApiManual.Proofs.Text.Replacement

/-!
# Tables

A table is read back by cutting it into lines, and each line at the bars that no backslash
escapes.  What is read is what the cells show, so nothing in a cell can add, merge or shift
rows or columns.
-/

namespace ApiManual
namespace Markdown

open ApiManual.Text

/-! ## Reading a table -/

/-- What a cell shows: its text in one line. -/
def shownCell (text : Text) : Text :=
  replace ['\n'] "<br>".toList (replace ['\r', '\n'] "<br>".toList (trim text))

/-- The cells of a row under as many headers. -/
def shownRow (width : ℕ) (row : List Text) : List Text :=
  (List.range width).map fun i => (row[i]?.map shownCell).getD []

/-- Cuts a text at each bar that does not stand directly behind a backslash.  `escaped`
says whether the text itself stands behind one. -/
def cutAtBars (escaped : Bool) : Text → List Text
  | [] => [[]]
  | c :: rest =>
    if c = '|' && !escaped then
      [] :: cutAtBars false rest
    else
      (cutAtBars (c = '\\') rest).modifyHead (c :: ·)

/-- What stands for a cell between two bars. -/
def readCell (piece : Text) : Text :=
  replace ['\\', '|'] ['|'] (trim piece)

/-- The cells of a line that begins and ends with a bar. -/
def readRow? (line : Text) : Option (List Text) :=
  match cutAtBars false line with
  | [] :: pieces =>
    if pieces.getLast? = some [] then some (pieces.dropLast.map readCell) else none
  | _ => none

/-- The headers and the rows of a table.  Its second line shows the alignment only. -/
def readTable? (text : Text) : Option (List Text × List (List Text)) :=
  match text.splitOn '\n' with
  | header :: _ :: lines => do
    let headers ← readRow? header
    let rows ← lines.mapM readRow?
    return (headers, rows)
  | _ => none

/-! ## Bars -/

def escapeBars (text : Text) : Text :=
  replace ['|'] ['\\', '|'] text

theorem escapeBars_nil : escapeBars [] = [] := rfl

theorem escapeBars_cons (c : Char) (text : Text) :
    escapeBars (c :: text) = (if c = '|' then ['\\', '|'] else [c]) ++ escapeBars text := by
  rw [escapeBars, escapeBars, replace_char, replace_char, List.flatMap_cons]

theorem escapeBars_bar (text : Text) :
    escapeBars ('|' :: text) = '\\' :: '|' :: escapeBars text := by
  rw [escapeBars_cons, if_pos rfl]
  rfl

theorem escapeBars_other {c : Char} (hc : c ≠ '|') (text : Text) :
    escapeBars (c :: text) = c :: escapeBars text := by
  rw [escapeBars_cons, if_neg hc]
  rfl

theorem escapeBars_append (s t : Text) : escapeBars (s ++ t) = escapeBars s ++ escapeBars t := by
  simp only [escapeBars, replace_char, List.flatMap_append]

theorem escapeBars_eq_self {text : Text} (h : '|' ∉ text) : escapeBars text = text :=
  replace_eq_self _ fun hin => h (hin.subset (by simp))

/-- No bar stands in front of an escaped text. -/
theorem head?_escapeBars (text : Text) : (escapeBars text).head? ≠ some '|' := by
  cases text with
  | nil => simp [escapeBars_nil]
  | cons c text =>
      by_cases hc : c = '|'
      · rw [hc, escapeBars_bar]
        simp
      · rw [escapeBars_other hc]
        simpa using hc

theorem replace_escapeBars (text : Text) : replace ['\\', '|'] ['|'] (escapeBars text) = text := by
  rw [replace, if_neg (by decide)]
  induction text with
  | nil => rfl
  | cons c text ih =>
      by_cases hc : c = '|'
      · rw [hc, escapeBars_bar, replaceFrom_cons_of_hit (by simp)]
        exact congrArg ('|' :: ·) ih
      · have hmiss : ¬ ['\\', '|'] <+: c :: escapeBars text := by
          rw [List.cons_prefix_cons]
          rintro ⟨-, rest, hrest⟩
          exact head?_escapeBars text (by rw [← hrest]; rfl)
        rw [escapeBars_other hc, replaceFrom_cons_of_miss hmiss, ih]

theorem trimmed_escapeBars {text : Text} (h : Trimmed text) : Trimmed (escapeBars text) := by
  cases text with
  | nil => exact h
  | cons c text =>
      obtain ⟨front, d, hd⟩ := (List.eq_nil_or_concat' (c :: text)).resolve_left (by simp)
      apply trimmed_of_edges
      · by_cases hc : c = '|'
        · rw [hc, escapeBars_bar]
          rintro _ ⟨⟩
          rfl
        · rw [escapeBars_other hc]
          exact h.head
      · rw [hd] at h ⊢
        have hlast : (escapeBars [d]).getLast? = some d := by
          rw [escapeBars_cons]
          split
          · rename_i hbar
            rw [hbar]
            rfl
          · rfl
        have hend : escapeBars [d] ≠ [] := by
          intro hnil
          rw [hnil] at hlast
          cases hlast
        rw [escapeBars_append, List.getLast?_append_of_ne_nil _ hend, hlast]
        exact fun e he => h.last e (by rw [List.getLast?_concat]; exact he)

/-- Bars can be escaped before or after other characters are replaced. -/
theorem replace_escapeBars_comm {old new : Text} (hne : old ≠ []) (hbar : '|' ∉ old)
    (hslash : '\\' ∉ old) (hnew : '|' ∉ new) (text : Text) :
    replace old new (escapeBars text) = escapeBars (replace old new text) := by
  have hplain : ∀ s : Text, '|' ∉ s → escapeBars (replace old new s) = replace old new s := by
    intro s hs
    apply escapeBars_eq_self
    intro hmem
    rcases mem_replace hne hmem with hin | hin
    · exact hnew hin
    · exact hs hin
  induction hlength : text.length using Nat.strong_induction_on generalizing text with
  | _ n ih =>
      by_cases hmem : '|' ∈ text
      · obtain ⟨front, back, rfl, hfront⟩ := List.eq_append_cons_of_mem hmem
        have hback := ih back.length (by simp [← hlength]; omega) back rfl
        have hcut := replace_append_cons new hbar [] (escapeBars back)
        rw [List.nil_append, replace_nil hne, List.nil_append] at hcut
        rw [escapeBars_append, escapeBars_bar, escapeBars_eq_self hfront,
          replace_append_cons new hslash, hcut, hback, replace_append_cons new hbar,
          escapeBars_append, escapeBars_bar, hplain front hfront]
      · rw [escapeBars_eq_self hmem, hplain text hmem]

/-! ## Cells -/

theorem escapeCell_eq (text : Text) : escapeCell text = escapeBars (shownCell text) := by
  have hfeed : ∀ s, replace ['\n'] "<br>".toList (escapeBars s) =
      escapeBars (replace ['\n'] "<br>".toList s) :=
    replace_escapeBars_comm (by decide) (by decide) (by decide) (by decide)
  have hreturn : ∀ s, replace ['\r', '\n'] "<br>".toList (escapeBars s) =
      escapeBars (replace ['\r', '\n'] "<br>".toList s) :=
    replace_escapeBars_comm (by decide) (by decide) (by decide) (by decide)
  have hcell : escapeCell text = replace ['\n'] "<br>".toList
      (replace ['\r', '\n'] "<br>".toList (escapeBars (trim text))) := rfl
  rw [hcell, hreturn, hfeed, shownCell]

theorem trimmed_shownCell (text : Text) : Trimmed (shownCell text) := by
  have hreturn : Trimmed (replace ['\r', '\n'] "<br>".toList (trim text)) :=
    (trimmed_trim text).replace (by simp [isWhitespace]) (by decide) _
  exact hreturn.replace (by simp [isWhitespace]) (by decide) _

theorem noFeed_escapeCell (text : Text) : '\n' ∉ escapeCell text := by
  rw [escapeCell, replace_char, List.mem_flatMap]
  rintro ⟨c, -, hc⟩
  split at hc
  · revert hc
    decide
  · rename_i hne
    exact hne (List.mem_singleton.mp hc).symm

/-- A cell with the space on either side of it. -/
def spaced (cell : Text) : Text :=
  ' ' :: (cell ++ [' '])

theorem readCell_spaced (text : Text) : readCell (spaced (escapeCell text)) = shownCell text := by
  have htrimmed : Trimmed (escapeCell text) := by
    rw [escapeCell_eq]
    exact trimmed_escapeBars (trimmed_shownCell text)
  have htrim : trim (escapeCell text ++ [' ']) = escapeCell text :=
    (Padded.append (escapeCell text) (by simp [isBlank])).trim_eq.trans htrimmed
  rw [readCell, spaced, trim_space, htrim, escapeCell_eq, replace_escapeBars]

/-! ## Rows -/

theorem tableRow_eq {cells : List Text} (h : cells ≠ []) :
    tableRow cells = '|' :: cells.flatMap fun cell => spaced cell ++ ['|'] := by
  induction cells with
  | nil => exact absurd rfl h
  | cons cell cells ih =>
      cases cells with
      | nil => simp [tableRow, spaced]
      | cons next cells =>
          have hrest := ih (by simp)
          have hjoin : tableRow (cell :: next :: cells) =
              '|' :: (spaced cell ++ tableRow (next :: cells)) := by
            simp [tableRow, join_cons_cons, spaced]
          rw [hjoin, hrest, List.flatMap_cons]
          simp

theorem cutAtBars_escapeBars (escaped : Bool) (text rest : Text) :
    cutAtBars escaped (escapeBars text ++ ' ' :: '|' :: rest) =
      (escapeBars text ++ [' ']) :: cutAtBars false rest := by
  induction text generalizing escaped with
  | nil => simp [escapeBars_nil, cutAtBars]
  | cons c text ih =>
      by_cases hc : c = '|'
      · rw [hc, escapeBars_bar]
        simp [cutAtBars, ih]
      · rw [escapeBars_other hc]
        simp [cutAtBars, hc, ih]

theorem cutAtBars_spaced (text rest : Text) :
    cutAtBars false (spaced (escapeCell text) ++ '|' :: rest) =
      spaced (escapeCell text) :: cutAtBars false rest := by
  have hcut := cutAtBars_escapeBars false (shownCell text) rest
  rw [← escapeCell_eq] at hcut
  simp [spaced, cutAtBars, hcut]

theorem cutAtBars_tableRow {texts : List Text} (h : texts ≠ []) :
    cutAtBars false (tableRow (texts.map escapeCell)) =
      [] :: ((texts.map fun text => spaced (escapeCell text)) ++ [[]]) := by
  have hcells : ∀ texts : List Text,
      cutAtBars false ((texts.map escapeCell).flatMap fun cell => spaced cell ++ ['|']) =
        (texts.map fun text => spaced (escapeCell text)) ++ [[]] := by
    intro texts
    induction texts with
    | nil => rfl
    | cons text texts ih =>
        rw [List.map_cons, List.flatMap_cons, List.append_assoc, List.singleton_append,
          cutAtBars_spaced, ih]
        rfl
  rw [tableRow_eq (by simpa using h), cutAtBars, if_pos (by decide), hcells]

theorem readRow?_tableRow {texts : List Text} (h : texts ≠ []) :
    readRow? (tableRow (texts.map escapeCell)) = some (texts.map shownCell) := by
  have hcells : (texts.map fun text => spaced (escapeCell text)).map readCell =
      texts.map shownCell := by
    simp [readCell_spaced, Function.comp_def]
  simp only [readRow?, cutAtBars_tableRow h]
  rw [if_pos List.getLast?_concat, List.dropLast_concat, hcells]

theorem noFeed_tableRow {cells : List Text} (hne : cells ≠ []) (h : ∀ cell ∈ cells, '\n' ∉ cell) :
    '\n' ∉ tableRow cells := by
  simpa [tableRow_eq hne, spaced] using h

theorem noFeed_marker (a : Align) : '\n' ∉ a.marker := by
  cases a <;> decide

/-! ## Tables -/

theorem rowCells_eq (width : ℕ) (row : List Text) :
    rowCells width row = ((List.range width).map fun i => row[i]?.getD []).map escapeCell := by
  rw [rowCells, List.map_map]
  rfl

theorem shownRow_eq (width : ℕ) (row : List Text) :
    shownRow width row = ((List.range width).map fun i => row[i]?.getD []).map shownCell := by
  rw [shownRow, List.map_map]
  apply List.map_congr_left
  intro i _
  rw [Function.comp_apply]
  cases row[i]? <;> rfl

/-- The lines of a table. -/
theorem splitOn_render_table {headers : List Text} (hheaders : headers ≠ []) (align : List Align)
    (rows : List (List Text)) :
    (Block.table headers align rows).render.splitOn '\n' =
      tableRow (headers.map escapeCell) :: tableRow (alignCells headers.length align) ::
        rows.map fun row => tableRow (rowCells headers.length row) := by
  apply List.splitOn_intercalate
  · simp only [List.forall_mem_cons, List.forall_mem_map]
    refine ⟨?_, ?_, ?_⟩
    · apply noFeed_tableRow (by simpa using hheaders)
      exact List.forall_mem_map.mpr fun header _ => noFeed_escapeCell header
    · apply noFeed_tableRow (by simpa [alignCells] using hheaders)
      exact List.forall_mem_map.mpr fun i _ => noFeed_marker _
    · intro row _
      apply noFeed_tableRow (by simpa [rowCells] using hheaders)
      exact List.forall_mem_map.mpr fun i _ => noFeed_escapeCell _
  · exact List.cons_ne_nil _ _

/-- Whatever the cells hold, a table has one line for each row and two more, and it reads
back as what its cells show. -/
theorem readTable?_render {headers : List Text} (hheaders : headers ≠ []) (align : List Align)
    (rows : List (List Text)) :
    let text := (Block.table headers align rows).render
    (text.splitOn '\n').length = rows.length + 2 ∧
      readTable? text = some (headers.map shownCell, rows.map (shownRow headers.length)) := by
  intro text
  have hlines := splitOn_render_table hheaders align rows
  have hrow : ∀ row, readRow? (tableRow (rowCells headers.length row)) =
      some (shownRow headers.length row) := by
    intro row
    rw [rowCells_eq, shownRow_eq]
    exact readRow?_tableRow (by simpa using hheaders)
  refine ⟨by simp [text, hlines], ?_⟩
  have hrows : (rows.map fun row => tableRow (rowCells headers.length row)).mapM readRow? =
      some (rows.map (shownRow headers.length)) := by
    rw [mapM_eq_some_iff, List.forall₂_map_left_iff, List.forall₂_map_right_iff]
    exact List.forall₂_same.mpr fun row _ => hrow row
  simp only [readTable?, text, hlines, readRow?_tableRow hheaders, hrows]
  rfl

/-- A table with bars behind backslashes, a backslash at the end of a cell, line ends of
both kinds, a long row and a short one. -/
theorem readTable?_render_bars :
    let headers := ["Type".toList, "Text".toList]
    let rows := [["a|b\\".toList, " x\r\ny\nz ".toList, "|".toList], ["\\|".toList]]
    let text := (Block.table headers [.left, .center] rows).render
    headers ≠ [] ∧ (text.splitOn '\n').length = rows.length + 2 ∧
      readTable? text = some (headers,
        [["a|b\\".toList, "x<br>y<br>z".toList], ["\\|".toList, []]]) := by
  intro headers rows text
  have hheaders : headers ≠ [] := by decide
  obtain ⟨hlines, htable⟩ := readTable?_render hheaders [.left, .center] rows
  have hshown : (headers.map shownCell, rows.map (shownRow headers.length)) =
      (headers, [["a|b\\".toList, "x<br>y<br>z".toList], ["\\|".toList, []]]) := by
    decide +kernel
  exact ⟨hheaders, hlines, htable.trans (congrArg some hshown)⟩

end Markdown
end ApiManual
