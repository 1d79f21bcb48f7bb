import ApiManual.Proofs.Page.Targets
import ApiManual.Proofs.Symbol.Delimiter
import ApiManual.Proofs.Symbol.Origin

/-!
# Mentions of names in descriptions

A name of the index that a description mentions becomes a link, and the link reaches the
page: paragraphs and table cells are trimmed and escaped around it.
-/

namespace ApiManual

/-- The texts about a function that a page shows with links. -/
def FunctionDoc.descriptions (f : FunctionDoc) : List Text :=
  f.summary :: f.details :: (f.params.map (·.details) ++ f.returns.map (·.details))

namespace Markdown

/-- A text that a table cell shows as it is. -/
def FitsCell (text : Text) : Prop :=
  '|' ∉ text ∧ '\n' ∉ text

instance (text : Text) : Decidable (FitsCell text) :=
  inferInstanceAs (Decidable (_ ∧ _))

theorem FitsCell.append {a b : Text} (ha : FitsCell a) (hb : FitsCell b) :
    FitsCell (a ++ b) := by
  simp only [FitsCell, List.mem_append, not_or]
  exact ⟨⟨ha.1, hb.1⟩, ha.2, hb.2⟩

theorem trimmed_mark (w : Text) : Text.Trimmed ('<' :: (w ++ ['>'])) := by
  have hlast : ('<' :: (w ++ ['>'])).getLast? = some '>' := by
    rw [← List.cons_append, List.getLast?_concat]
  exact Text.trimmed_of_ends rfl hlast rfl rfl

theorem infix_escapeCell {w text : Text} (hw : FitsCell w) (h : '<' :: (w ++ ['>']) <:+: text) :
    '<' :: (w ++ ['>']) <:+: escapeCell text := by
  have hbar : ¬ ['|'] <:+: w := fun hin => hw.1 (hin.subset (by simp))
  have hreturn : ¬ ['\r', '\n'] <:+: w := fun hin => hw.2 (hin.subset (by simp))
  have hfeed : ¬ ['\n'] <:+: w := fun hin => hw.2 (hin.subset (by simp))
  have htrim := (trimmed_mark w).infix_trim h
  have hbars := Text.infix_replace ['\\', '|'] (by decide) (by decide) hbar htrim
  have hreturns := Text.infix_replace "<br>".toList (by decide) (by decide) hreturn hbars
  exact Text.infix_replace "<br>".toList (by decide) (by decide) hfeed hreturns

theorem infix_render_raw {w text : Text} (hw : Text.Trimmed w) (hne : w ≠ [])
    (h : w <:+: text) : ∃ b ∈ paragraph text, w <:+: b.render := by
  have hkeep := hw.infix_trimEnd h
  have hshown : ¬ (Text.trimEnd text).isEmpty := by
    intro hempty
    rw [List.isEmpty_iff.mp hempty, List.infix_nil] at hkeep
    exact hne hkeep
  refine ⟨.raw (Text.trimEnd text), ?_, hkeep⟩
  simp [paragraph, hshown]

theorem infix_tableRow {w cell : Text} {cells : List Text} (hcell : cell ∈ cells)
    (h : w <:+: cell) : w <:+: tableRow cells := by
  have hjoin : w <:+: Text.join " | ".toList cells := h.trans (Text.infix_join hcell)
  exact hjoin.trans ⟨"| ".toList, " |".toList, rfl⟩

/-- What a cell of a row holds stands in the table, if there is a header above it. -/
theorem infix_render_table {w : Text} {headers : List Text} {align : List Align}
    {rows : List (List Text)} {row : List Text} (hrow : row ∈ rows) {i : ℕ}
    (hi : i < headers.length) (h : w <:+: escapeCell (row[i]?.getD [])) :
    w <:+: (Block.table headers align rows).render := by
  have hcell : escapeCell (row[i]?.getD []) ∈ rowCells headers.length row :=
    List.mem_map.mpr ⟨i, List.mem_range.mpr hi, rfl⟩
  have hline : tableRow (rowCells headers.length row) ∈
      tableRow (headers.map escapeCell) :: tableRow (alignCells headers.length align) ::
        rows.map fun row => tableRow (rowCells headers.length row) :=
    List.mem_cons_of_mem _ (List.mem_cons_of_mem _ (List.mem_map_of_mem hrow))
  exact (infix_tableRow hcell h).trans (Text.infix_join hline)

theorem infix_render_of_mem {b : Block} {document : Document} (h : b ∈ document) :
    b.render <:+: document.render := by
  obtain ⟨front, back, rfl⟩ := List.append_of_mem h
  have hshows : Shows (Document.render (front ++ b :: back)) [b] :=
    shows_of_infix (List.cons_ne_nil b []) ⟨front, back, by simp⟩
  exact hshows.head_infix

end Markdown

namespace Page

open ApiManual.Markdown ApiManual.Symbol

theorem exists_link_eq (e : Entry) (hanchor : FitsCell e.anchor) (hdisplay : FitsCell e.display) :
    ∃ w, FitsCell w ∧ e.replacement .link = '<' :: (w ++ ['>']) := by
  have hopen : FitsCell "a href=\"".toList := by decide
  have hquote : FitsCell "\">".toList := by decide
  have hclose : FitsCell "</a".toList := by decide
  have hends : ∀ a b c d f : Text,
      '<' :: a ++ b ++ c ++ d ++ (f ++ ['>']) = '<' :: (a ++ b ++ c ++ d ++ f ++ ['>']) := by
    intro a b c d f
    simp
  exact ⟨_, (((hopen.append hanchor).append hquote).append hdisplay).append hclose,
    hends "a href=\"".toList e.anchor "\">".toList e.display "</a".toList⟩

/-- A link in a description of a function is in the section of the function. -/
theorem exists_block_functionSection {index : Index} {w : Text} (hw : FitsCell w)
    (scope : Text) (level : ℕ) {f : FunctionDoc} {text : Text} (htext : text ∈ f.descriptions)
    (hne : text ≠ []) (hlink : '<' :: (w ++ ['>']) <:+: index.link text) :
    ∃ b ∈ functionSection index scope level f, '<' :: (w ++ ['>']) <:+: b.render := by
  have hparagraph := infix_render_raw (trimmed_mark w) (List.cons_ne_nil _ _) hlink
  have hcell := infix_escapeCell hw hlink
  simp only [FunctionDoc.descriptions, List.mem_cons, List.mem_append, List.mem_map] at htext
  rcases htext with rfl | rfl | ⟨p, hp, rfl⟩ | ⟨r, hr, rfl⟩
  · obtain ⟨b, hb, hin⟩ := hparagraph
    have hmem : b ∈ linked index f.summary := hb
    refine ⟨b, ?_, hin⟩
    simp only [functionSection, List.mem_append, hmem, true_or, or_true]
  · obtain ⟨b, hb, hin⟩ := hparagraph
    have hmem : b ∈ linked index f.details := hb
    have hshown : f.details.isEmpty = false := by simpa using hne
    refine ⟨b, ?_, hin⟩
    simp only [functionSection, hshown, List.mem_append, List.mem_cons, hmem, Bool.false_eq_true,
      if_false, true_or, or_true]
  · refine ⟨paramTable index f.params, ?_, ?_⟩
    · simp only [functionSection, List.mem_append, List.mem_cons, true_or, or_true]
    · exact infix_render_table (List.mem_map_of_mem hp) (i := 2) (by decide) hcell
  · have hshown : f.returns.isEmpty = false := by simpa using List.ne_nil_of_mem hr
    refine ⟨returnTable index f.returns, ?_, ?_⟩
    · simp only [functionSection, hshown, List.mem_append, List.mem_cons, Bool.false_eq_true,
        if_false, true_or, or_true]
    · exact infix_render_table (List.mem_map_of_mem hr) (i := 1) (by decide) hcell

/-- A name that a description of a public function mentions between delimiters is a link on
the page of the module.  The link is the one that the first module of the run to register
the name gives it. -/
theorem link_infix_text {modules : List (ModuleDoc × Text)} {front back : List Entry} {e : Entry}
    (hindex : (Index.ofModules modules).entries = front ++ e :: back)
    (hname : e.symbol ≠ []) (hanchor : FitsCell e.anchor) (hdisplay : FitsCell e.display)
    (hback : ∀ d ∈ back, ¬ d.symbol <:+: e.replacement .link)
    {m : ModuleDoc} (hplain : m.isClassModule = false) {f : FunctionDoc} (hf : f ∈ m.functions)
    (hpublic : f.isPrivate = false) {u v : Text} (htext : u ++ (e.symbol ++ v) ∈ f.descriptions)
    (hu : (Index.ofModules modules).Closes u) (hv : (Index.ofModules modules).Opens v) :
    ∃ d, origin? modules e.symbol = some d ∧
      "<a href=\"".toList ++ d.anchor ++ "\">".toList ++ d.display ++ "</a>".toList <:+:
        text (Index.ofModules modules) m := by
  have hmem : e ∈ (Index.ofModules modules).entries := by simp [hindex]
  refine ⟨e, mem_ofModules_iff.mp hmem, ?_⟩
  have hlink := replacement_infix_substitute hindex hback hu hv
  obtain ⟨w, hw, heq⟩ := exists_link_eq e hanchor hdisplay
  rw [heq] at hlink
  obtain ⟨b, hb, hin⟩ :=
    exists_block_functionSection hw [] 3 htext (by simp [hname]) hlink
  have hsection := function_infix_plainModulePage (Index.ofModules modules) hf hpublic
  have hpage := infix_render_of_mem (hsection.subset hb)
  have hshown : e.replacement .link <:+: text (Index.ofModules modules) m := by
    rw [heq, text_of_plain _ hplain]
    exact hin.trans hpage
  exact hshown

def widgetClass : ClassDoc := { name := "Widget".toList }

/-- A function whose parameter is described by means of a class of another module. -/
def openFunction : FunctionDoc where
  name := "open".toList
  params := [{ name := "w".toList, details := "The ui.Widget, if any".toList }]

def appModule : ModuleDoc where
  name := "app".toList
  functions := [openFunction]

/-- The class is described twice, and the first description is the one that counts. -/
def galleryModules : List (ModuleDoc × Text) :=
  [(appModule, "/api/app".toList),
    ({ name := "ui".toList, classes := [widgetClass] }, "/api/core".toList),
    ({ name := "ui".toList, classes := [widgetClass] }, "/api/spare".toList)]

def galleryEntry (symbol display anchor : String) : Entry :=
  ⟨symbol.toList, display.toList, anchor.toList⟩

theorem entries_galleryModules :
    (Index.ofModules galleryModules).entries =
      [] ++ galleryEntry "ui.Widget" "Widget" "/api/core/#widget" ::
        [galleryEntry "app.open" "open" "/api/app/#open", galleryEntry "app" "app" "/api/app",
          galleryEntry "ui" "ui" "/api/core"] :=
  entries_eq_of_perm (by decide) (by decide)

theorem link_infix_galleryPage :
    let index := Index.ofModules galleryModules
    let e := galleryEntry "ui.Widget" "Widget" "/api/core/#widget"
    let back := [galleryEntry "app.open" "open" "/api/app/#open",
      galleryEntry "app" "app" "/api/app", galleryEntry "ui" "ui" "/api/core"]
    index.entries = [] ++ e :: back ∧ e.symbol ≠ [] ∧ FitsCell e.anchor ∧ FitsCell e.display ∧
      (∀ d ∈ back, ¬ d.symbol <:+: e.replacement .link) ∧ appModule.isClassModule = false ∧
      openFunction ∈ appModule.functions ∧ openFunction.isPrivate = false ∧
      "The ".toList ++ (e.symbol ++ ", if any".toList) ∈ openFunction.descriptions ∧
      index.Closes "The ".toList ∧ index.Opens ", if any".toList ∧
      ∃ d, origin? galleryModules e.symbol = some d ∧
        "<a href=\"".toList ++ d.anchor ++ "\">".toList ++ d.display ++ "</a>".toList <:+:
          text index appModule := by
  intro index e back
  have hname : e.symbol ≠ [] := by decide
  have hanchor : FitsCell e.anchor := by decide
  have hdisplay : FitsCell e.display := by decide
  have hback : ∀ d ∈ back, ¬ d.symbol <:+: e.replacement .link := by decide
  have hfunction : openFunction ∈ appModule.functions := List.mem_singleton_self _
  have htext : "The ".toList ++ (e.symbol ++ ", if any".toList) ∈ openFunction.descriptions := by
    decide
  have hcloses : index.Closes "The ".toList := by
    have hlast : "The ".toList.getLast? = some ' ' := by decide
    intro c hc
    rw [hlast, Option.mem_some_iff] at hc
    rw [← hc, entries_galleryModules]
    decide
  have hopens : index.Opens ", if any".toList := by
    have hfirst : ", if any".toList.head? = some ',' := by decide
    intro c hc
    rw [hfirst, Option.mem_some_iff] at hc
    rw [← hc, entries_galleryModules]
    decide
  exact ⟨entries_galleryModules, hname, hanchor, hdisplay, hback, rfl, hfunction, rfl, htext,
    hcloses, hopens, link_infix_text entries_galleryModules hname hanchor hdisplay hback rfl
      hfunction rfl htext hcloses hopens⟩

end Page
end ApiManual
