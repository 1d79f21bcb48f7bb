import ApiManual.Proofs.DocComment.Print
import ApiManual.Proofs.DocComment.Refinement
import ApiManual.Proofs.Text.Lines

/-!
# Printed blocks

A printed line is read as what it was printed for, and the lines of a printed block make
a block with the same text, tags and usage sample.  Only the numbers of the lines are
new.
-/

namespace ApiManual
namespace DocComment

open Text

/-! ## Lines -/

theorem isSeparator_dashes {rest : Text} (h : rest.head? ≠ some '-') :
    isSeparator ('-' :: '-' :: '-' :: rest) = false := by
  have hskip : skipBlanks ('-' :: '-' :: '-' :: rest) = '-' :: '-' :: '-' :: rest := rfl
  have htake : ('-' :: '-' :: '-' :: rest).takeWhile (· = '-') = ['-', '-', '-'] := by
    cases rest with
    | nil => rfl
    | cons c rest => simpa using h
  simp [isSeparator, hskip, htake]

theorem docContent?_dashes (rest : Text) :
    docContent? ('-' :: '-' :: '-' :: rest) = some (dropBlank rest) := by
  have hskip : skipBlanks ('-' :: '-' :: '-' :: rest) = '-' :: '-' :: '-' :: rest := rfl
  simp [docContent?, hskip, dropPrefix?]

theorem ofText_textLine {line : Text} (h : tag? line = none) :
    SourceLine.ofText (textLine line) = .text line := by
  cases line with
  | nil =>
      have hline : textLine [] = ['-', '-', '-'] := rfl
      rw [hline, SourceLine.ofText, isSeparator_dashes (by simp), docContent?_dashes]
      rfl
  | cons c line =>
      have hline : textLine (c :: line) = '-' :: '-' :: '-' :: ' ' :: c :: line := rfl
      have hblank : dropBlank (' ' :: c :: line) = c :: line := rfl
      rw [hline, SourceLine.ofText, isSeparator_dashes (by simp), docContent?_dashes, hblank]
      simp [h]

theorem followedBy_ne_nil {front behind : Text} (h : front ≠ []) :
    followedBy front behind ≠ [] := by
  unfold followedBy
  split
  · exact h
  · simp

theorem trimmed_followedBy {front behind : Text} (hfront : Trimmed front) (hne : front ≠ [])
    (hbehind : Trimmed behind) : Trimmed (followedBy front behind) := by
  unfold followedBy
  split
  · exact hfront
  · rename_i hoperand
    exact hfront.append hbehind hne (by simpa using hoperand) [' ']

def IsTagName (name : Text) : Prop :=
  name ≠ [] ∧ ∀ c ∈ name, isTagChar c

instance (name : Text) : Decidable (IsTagName name) :=
  decidable_of_iff (name ≠ [] ∧ name.all isTagChar) (by simp [IsTagName])

/-- A tag that can be written in one line. -/
structure TagForm (name operand : Text) : Prop where
  tagName : IsTagName name
  trimmed : Trimmed operand
  oneLine : '\n' ∉ operand

theorem isWhitespace_of_isTagChar {c : Char} (h : isTagChar c) : isWhitespace c = false := by
  apply Unicode.isWhitespace_eq_false (p := isTagChar) _ h
  decide

namespace TagForm

variable {name operand : Text}

theorem isWord (h : TagForm name operand) : IsWord name :=
  fun c hc => isWhitespace_of_isTagChar (h.tagName.2 c hc)

theorem trimmed_content (h : TagForm name operand) : Trimmed (followedBy name operand) :=
  trimmed_followedBy h.isWord.trimmed h.tagName.1 h.trimmed

theorem getLast?_tagLine (h : TagForm name operand) :
    (tagLine name operand).getLast? = (followedBy name operand).getLast? := by
  have hline : tagLine name operand = ['-', '-', '-', '@'] ++ followedBy name operand := rfl
  rw [hline, List.getLast?_append_of_ne_nil _ (followedBy_ne_nil h.tagName.1)]

theorem tag?_eq (h : TagForm name operand) :
    tag? ('@' :: followedBy name operand) = some (name, operand) := by
  have htrimmed : Trimmed ('@' :: followedBy name operand) := by
    apply trimmed_of_edges
    · intro c hc
      cases hc
      rfl
    · have hlast : ('@' :: followedBy name operand).getLast? = (tagLine name operand).getLast? :=
        (List.getLast?_append_of_ne_nil ['-', '-', '-'] (by simp)).symm
      rw [hlast, h.getLast?_tagLine]
      exact h.trimmed_content.last
  have htrim : trim ('@' :: followedBy name operand) = '@' :: followedBy name operand := htrimmed
  rw [tag?, htrim]
  obtain ⟨first, others, hname⟩ := List.exists_cons_of_ne_nil h.tagName.1
  by_cases hoperand : operand = []
  · have hfollowed : followedBy name operand = name := by simp [followedBy, hoperand]
    have htake : name.takeWhile isTagChar = name := List.takeWhile_eq_self_iff.mpr h.tagName.2
    have hdrop : name.dropWhile isTagChar = [] := List.dropWhile_eq_nil_iff.mpr h.tagName.2
    simp only [hfollowed, htake, hdrop]
    simp [hname, hoperand]
  · have hfollowed : followedBy name operand = name ++ ' ' :: operand := by
      simp [followedBy, hoperand]
    have htake := takeWhile_append_cons (c := ' ') h.tagName.2 rfl operand
    have hdrop := dropWhile_append_cons (c := ' ') h.tagName.2 rfl operand
    have htrimOperand : trim operand = operand := h.trimmed
    simp only [hfollowed, htake, hdrop]
    simp [hname, isBlank, htrimOperand]

theorem ofText_eq (h : TagForm name operand) :
    SourceLine.ofText (tagLine name operand) = .tag name operand := by
  have hblank : dropBlank ('@' :: followedBy name operand) = '@' :: followedBy name operand := rfl
  rw [tagLine, SourceLine.ofText, isSeparator_dashes (by simp), docContent?_dashes, hblank]
  simp [h.tag?_eq]

theorem fileLine (h : TagForm name operand) : FileLine (tagLine name operand) := by
  constructor
  · have hname : '\n' ∉ name := fun hmem => by cases h.isWord '\n' hmem
    have hinside : '\n' ∉ followedBy name operand := by
      unfold followedBy
      split
      · exact hname
      · simp [hname, h.oneLine]
    simp [tagLine, hinside]
  · rw [h.getLast?_tagLine]
    intro hlast
    cases h.trimmed_content.last '\r' hlast

end TagForm

theorem PlainLine.fileLine {line : Text} (h : PlainLine line) : FileLine (textLine line) := by
  cases line with
  | nil => constructor <;> decide
  | cons c line =>
      have hline : textLine (c :: line) = ['-', '-', '-', ' '] ++ c :: line := rfl
      constructor
      · have hinside : '\n' ∉ c :: line := h.oneLine
        rw [hline, List.mem_append, not_or]
        exact ⟨by decide, hinside⟩
      · rw [hline, List.getLast?_append_of_ne_nil _ (by simp)]
        exact (fileLine_of_trimmed h.oneLine h.trimmedEnd).noReturn

theorem ofText_nil : SourceLine.ofText [] = .gap := by
  simp [SourceLine.ofText, isSeparator, docContent?, isGap, skipBlanks, dropPrefix?, trim,
    trimStart, trimEnd, dropEndWhile]

/-! ## Blocks -/

/-- A preamble whose lines are read as what they are printed for. -/
structure Preamble.Printable (a : Preamble) : Prop where
  text : ∀ line ∈ a.text, PlainLine line
  tagged : a.tags ≠ []
  tags : ∀ t ∈ a.tags, TagForm t.1 t.2
  noUsage : ∀ t ∈ a.tags, t.1 ≠ "usage".toList
  usage : ∀ sample ∈ a.usage, ∀ line ∈ sample, PlainLine line

def sourceTag (t : Text × Text) : SourceLine :=
  .tag t.1 t.2

def Preamble.sourceLines (a : Preamble) : List SourceLine :=
  a.text.map .text ++ (a.tags.map sourceTag ++
    (a.usageTags.map sourceTag ++ (a.usage.getD []).map .text))

def DocBlock.operands (b : DocBlock) : List (Text × Text) :=
  b.tags.map fun t => (t.name, t.operand)

theorem eq_of_mem_usageTags {a : Preamble} {t : Text × Text} (h : t ∈ a.usageTags) :
    t = ("usage".toList, []) := by
  unfold Preamble.usageTags at h
  split at h
  · exact List.mem_singleton.mp h
  · cases h

theorem tagForm_usage : TagForm "usage".toList [] where
  tagName := by decide
  trimmed := trimmed_nil
  oneLine := by decide

namespace Preamble.Printable

variable {a : Preamble}

theorem allTags (h : a.Printable) : ∀ t ∈ a.tags ++ a.usageTags, TagForm t.1 t.2 := by
  intro t ht
  rcases List.mem_append.mp ht with hmem | hmem
  · exact h.tags t hmem
  · rw [eq_of_mem_usageTags hmem]
    exact tagForm_usage

theorem usageLines (h : a.Printable) : ∀ line ∈ a.usage.getD [], PlainLine line := by
  cases husage : a.usage with
  | none => simp
  | some sample => exact h.usage sample husage

theorem map_textLine {ls : List Text} (h : ∀ line ∈ ls, PlainLine line) :
    (ls.map textLine).map SourceLine.ofText = ls.map .text := by
  rw [List.map_map]
  apply List.map_congr_left
  intro line hline
  exact ofText_textLine (h line hline).noTag

theorem map_ofText (h : a.Printable) : a.lines.map SourceLine.ofText = a.sourceLines := by
  have htags : ((a.tags ++ a.usageTags).map fun t => tagLine t.1 t.2).map SourceLine.ofText =
      (a.tags ++ a.usageTags).map sourceTag := by
    rw [List.map_map]
    apply List.map_congr_left
    intro t ht
    exact (h.allTags t ht).ofText_eq
  have hlines : a.lines = a.text.map textLine ++
      (a.tags ++ a.usageTags).map (fun t => tagLine t.1 t.2) ++
        (a.usage.getD []).map textLine := rfl
  rw [hlines, List.map_append, List.map_append, map_textLine h.text, htags,
    map_textLine h.usageLines, Preamble.sourceLines, List.map_append]
  simp only [List.append_assoc]

theorem fileLine (h : a.Printable) : ∀ line ∈ a.lines, FileLine line := by
  intro line hline
  simp only [Preamble.lines, List.mem_append, List.mem_map] at hline
  rcases hline with (⟨content, hmem, rfl⟩ | ⟨t, hmem, rfl⟩) | ⟨content, hmem, rfl⟩
  · exact (h.text content hmem).fileLine
  · exact (h.allTags t (List.mem_append.mpr hmem)).fileLine
  · exact (h.usageLines content hmem).fileLine

theorem isDoc (a : Preamble) : ∀ l ∈ a.sourceLines, l.isDoc := by
  intro l hl
  simp only [Preamble.sourceLines, List.mem_append, List.mem_map] at hl
  rcases hl with ⟨content, -, rfl⟩ | ⟨t, -, rfl⟩ | ⟨t, -, rfl⟩ | ⟨content, -, rfl⟩ <;> rfl

end Preamble.Printable

/-! ## The block of printed lines -/

/-- A block that shows what a preamble says. -/
structure Preamble.ReadAs (a : Preamble) (b : DocBlock) : Prop where
  text : b.text = a.text
  operands : b.operands = a.tags ++ a.usageTags
  usage : b.usage = a.usage

theorem untagged_texts {lt rest : List PlacedLine} {content : List Text}
    (hlt : lt.map Prod.fst = content.map .text) (hrest : untagged rest = []) :
    untagged (lt ++ rest) = content.map .text := by
  have htext : ∀ l ∈ content.map SourceLine.text, !l.isTag := by
    rw [List.forall_mem_map]
    exact fun line _ => rfl
  unfold untagged at hrest ⊢
  rw [List.map_append, hlt, List.takeWhile_append_of_pos htext, hrest, List.append_nil]

theorem tagSections_texts {lt : List PlacedLine} {content : List Text}
    (hlt : lt.map Prod.fst = content.map .text) (rest : List PlacedLine) :
    tagSections (lt ++ rest) = tagSections rest := by
  induction content generalizing lt with
  | nil =>
      rw [List.map_eq_nil_iff.mp hlt]
      rfl
  | cons line content ih =>
      obtain ⟨⟨l, n⟩, lt', rfl, rfl, hlt'⟩ := List.map_eq_cons_iff.mp hlt
      rw [List.cons_append, tagSections_cons rfl, ih hlt']

theorem untagged_tags {lg rest : List PlacedLine} {tags : List (Text × Text)}
    (hlg : lg.map Prod.fst = tags.map sourceTag) (hrest : untagged rest = []) :
    untagged (lg ++ rest) = [] := by
  cases tags with
  | nil =>
      rw [List.map_eq_nil_iff.mp hlg]
      exact hrest
  | cons t tags =>
      obtain ⟨⟨l, n⟩, lg', rfl, rfl, -⟩ := List.map_eq_cons_iff.mp hlg
      exact untagged_tag t.1 t.2 n (lg' ++ rest)

/-- Tags that follow each other directly have nothing between them. -/
theorem tagSections_tags {lg rest : List PlacedLine} {tags : List (Text × Text)}
    (hlg : lg.map Prod.fst = tags.map sourceTag) (hrest : untagged rest = []) :
    ∃ ts : List Tag, tagSections (lg ++ rest) = ts.map (⟨·, []⟩) ++ tagSections rest ∧
      ts.map (fun t => (t.name, t.operand)) = tags := by
  induction tags generalizing lg with
  | nil =>
      rw [List.map_eq_nil_iff.mp hlg]
      exact ⟨[], rfl, rfl⟩
  | cons t tags ih =>
      obtain ⟨⟨l, n⟩, lg', rfl, rfl, hlg'⟩ := List.map_eq_cons_iff.mp hlg
      obtain ⟨ts, hsections, hts⟩ := ih hlg'
      refine ⟨⟨n, t.1, t.2⟩ :: ts, ?_, by rw [List.map_cons, hts]⟩
      rw [List.cons_append, sourceTag, tagSections, untagged_tags hlg' hrest, hsections]
      rfl

theorem tagSections_usage {lu : List PlacedLine} {sample : List Text}
    (hlu : lu.map Prod.fst = sourceTag ("usage".toList, []) :: sample.map .text) :
    untagged lu = [] ∧
      ∃ n, tagSections lu = [⟨⟨n, "usage".toList, []⟩, sample.map .text⟩] := by
  obtain ⟨⟨l, n⟩, lt, rfl, rfl, hlt⟩ := List.map_eq_cons_iff.mp hlu
  refine ⟨untagged_tag _ _ _ _, n, ?_⟩
  have hbody : untagged (lt ++ []) = sample.map .text := untagged_texts hlt rfl
  have hbehind := tagSections_texts hlt []
  rw [List.append_nil] at hbody hbehind
  rw [sourceTag, tagSections, hbody, hbehind]
  rfl

theorem filterMap_description (content : List Text) :
    (content.map SourceLine.text).filterMap SourceLine.description? = content := by
  rw [List.filterMap_map]
  exact List.filterMap_some

theorem filterMap_content (content : List Text) :
    (content.map SourceLine.text).filterMap SourceLine.content? = content := by
  rw [List.filterMap_map]
  exact List.filterMap_some

theorem filterMap_break (content : List Text) :
    (content.map SourceLine.text).filterMap SourceLine.break? = [] := by
  rw [List.filterMap_map]
  exact List.filterMap_eq_nil_iff.mpr fun _ _ => rfl

theorem flatMap_descriptionLines (ts : List Tag) :
    (ts.map fun t => (⟨t, []⟩ : TagSection)).flatMap TagSection.descriptionLines = [] := by
  rw [List.flatMap_eq_nil_iff, List.forall_mem_map]
  intro t _
  unfold TagSection.descriptionLines
  split <;> rfl

theorem filter_isUsage {ts : List Tag} {tags : List (Text × Text)}
    (hts : ts.map (fun t => (t.name, t.operand)) = tags)
    (htags : ∀ t ∈ tags, t.1 ≠ "usage".toList) :
    (ts.map fun t => (⟨t, []⟩ : TagSection)).filter (·.isUsage) = [] := by
  rw [List.filter_eq_nil_iff, List.forall_mem_map]
  intro t ht
  have hname : t.name ≠ "usage".toList := by
    apply htags (t.name, t.operand)
    rw [← hts]
    exact List.mem_map_of_mem ht
  rw [TagSection.isUsage, decide_eq_true_eq]
  exact hname

/-- The sections of a block that its usage sample makes. -/
structure Preamble.UsageSections (a : Preamble) (sections : List TagSection) : Prop where
  text : sections.flatMap TagSection.descriptionLines = []
  operands : sections.map (fun s => (s.tag.name, s.tag.operand)) = a.usageTags
  usage : (sections.filter (·.isUsage)).getLast?.map TagSection.usageLines = a.usage

theorem Preamble.usageSections {a : Preamble} {lu : List PlacedLine}
    (hlu : lu.map Prod.fst = a.usageTags.map sourceTag ++ (a.usage.getD []).map .text) :
    untagged lu = [] ∧ a.UsageSections (tagSections lu) := by
  cases husage : a.usage with
  | none =>
      have hnil : lu = [] := by simpa [Preamble.usageTags, husage] using hlu
      subst hnil
      refine ⟨rfl, rfl, ?_, ?_⟩
      · simp [Preamble.usageTags, husage, tagSections]
      · simp [husage, tagSections]
  | some sample =>
      have hcons : lu.map Prod.fst = sourceTag ("usage".toList, []) :: sample.map .text := by
        rw [hlu, Preamble.usageTags, husage]
        rfl
      obtain ⟨huntagged, n, hsections⟩ := tagSections_usage hcons
      rw [hsections]
      have hisUsage : TagSection.isUsage ⟨⟨n, "usage".toList, []⟩, sample.map .text⟩ :=
        decide_eq_true rfl
      refine ⟨huntagged, ?_, ?_, ?_⟩
      · rw [List.flatMap_singleton, TagSection.descriptionLines, if_pos hisUsage]
        exact filterMap_break sample
      · rw [Preamble.usageTags, husage]
        rfl
      · rw [List.filter_cons_of_pos hisUsage, husage]
        exact congrArg some (filterMap_content sample)

/-- The lines of a preamble make a block that shows what it says. -/
theorem Preamble.Printable.readAs_blockOf {a : Preamble} (h : a.Printable)
    {ls : List PlacedLine} (hls : ls.map Prod.fst = a.sourceLines) : a.ReadAs (blockOf ls) := by
  obtain ⟨lt, lrest, rfl, hlt, hlrest⟩ := List.map_eq_append_iff.mp hls
  obtain ⟨lg, lu, rfl, hlg, hlu⟩ := List.map_eq_append_iff.mp hlrest
  obtain ⟨huntagged, hsections⟩ := Preamble.usageSections hlu
  obtain ⟨ts, hts, hoperands⟩ := tagSections_tags hlg huntagged
  have hall : tagSections (lt ++ (lg ++ lu)) = ts.map (⟨·, []⟩) ++ tagSections lu := by
    rw [tagSections_texts hlt, hts]
  have hfirst : untagged (lt ++ (lg ++ lu)) = a.text.map .text :=
    untagged_texts hlt (untagged_tags hlg huntagged)
  constructor
  · rw [blockOf, hfirst, hall, List.flatMap_append, flatMap_descriptionLines, hsections.text,
      filterMap_description]
    simp
  · rw [DocBlock.operands, blockOf, hall, List.map_append, List.map_append, List.map_map,
      List.map_map, List.map_map]
    have husage := hsections.operands
    rw [← hoperands, ← husage]
    rfl
  · have hnone := filter_isUsage hoperands h.noUsage
    rw [blockOf, lastUsage?, hall, List.filter_append, hnone, List.nil_append]
    exact hsections.usage

end DocComment
end ApiManual
