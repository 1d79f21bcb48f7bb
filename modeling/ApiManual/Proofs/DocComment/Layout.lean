import ApiManual.Proofs.DocComment.PaddedLine
import ApiManual.Proofs.DocComment.Refinement
import ApiManual.Proofs.Text.Lines

/-!
# Layout

A list of lines can be laid out as a source in many ways: with blanks on either side of a
line, with either line end, and with blank lines at the end.  All layouts of the same
lines document the same module, or fail at the same line for the same reason.
-/

namespace ApiManual
namespace DocComment

open Text

/-! ## Blocks -/

/-- Blocks that differ in blanks at the end of their lines only. -/
structure DocBlock.Alike (b b' : DocBlock) : Prop where
  firstLine : b.firstLine = b'.firstLine
  text : List.Forall₂ Padded b.text b'.text
  tags : b.tags = b'.tags
  usage : Option.Rel (List.Forall₂ Padded) b.usage b'.usage

namespace DocBlock.Alike

variable {b b' : DocBlock}

theorem refl (b : DocBlock) : b.Alike b where
  firstLine := rfl
  text := List.forall₂_same.mpr fun line _ => Padded.refl line
  tags := rfl
  usage := by
    cases b.usage with
    | none => exact .none
    | some lines => exact .some (List.forall₂_same.mpr fun line _ => Padded.refl line)

theorem addText (h : b.Alike b') {line line' : Text} (hline : Padded line line') :
    (b.addText line).Alike (b'.addText line') :=
  { h with text := List.rel_append h.text (.cons hline .nil) }

theorem usageLines (h : b.Alike b') :
    List.Forall₂ Padded (b.usage.getD []) (b'.usage.getD []) := by
  have husage := h.usage
  generalize b.usage = usage at husage ⊢
  generalize b'.usage = usage' at husage ⊢
  cases husage with
  | none => exact .nil
  | some hlines => exact hlines

theorem addUsage (h : b.Alike b') {line line' : Text} (hline : Padded line line') :
    (b.addUsage line).Alike (b'.addUsage line') :=
  { h with usage := .some (List.rel_append h.usageLines (.cons hline .nil)) }

theorem addTag (h : b.Alike b') (t : Tag) : (b.addTag t).Alike (b'.addTag t) :=
  { h with tags := congrArg (· ++ [t]) h.tags }

theorem openUsage (h : b.Alike b') (operand : Text) :
    (b.openUsage operand).Alike (b'.openUsage operand) :=
  { h with usage := .some (List.forall₂_same.mpr fun line _ => Padded.refl line) }

theorem descriptions_eq (h : b.Alike b') : b.descriptions = b'.descriptions := by
  rw [descriptions, descriptions, map_trimEnd_padded h.text]

theorem usageSample?_eq (h : b.Alike b') : b.usageSample? = b'.usageSample? := by
  have husage := h.usage
  unfold usageSample?
  generalize b.usage = usage at husage ⊢
  generalize b'.usage = usage' at husage ⊢
  cases husage with
  | none => rfl
  | some hlines => simp only [unindent_join_padded hlines]

/-! What a block is attached by are its tags, its descriptions and its usage sample. -/

theorem tag?_eq (h : b.Alike b') : b.tag? = b'.tag? := by
  funext name
  rw [tag?, tag?, h.tags]

theorem tagsNamed_eq (h : b.Alike b') : b.tagsNamed = b'.tagsNamed := by
  funext name
  rw [tagsNamed, tagsNamed, h.tags]

theorem classTag?_eq (h : b.Alike b') : b.classTag? = b'.classTag? := by
  rw [classTag?, classTag?, h.tag?_eq]

theorem moduleTag?_eq (h : b.Alike b') : b.moduleTag? = b'.moduleTag? := by
  rw [moduleTag?, moduleTag?, h.tag?_eq]

theorem describe_eq (h : b.Alike b') (r : Reading) : r.describe b = r.describe b' := by
  rw [Reading.describe, Reading.describe, h.descriptions_eq]

theorem attachModule_eq (h : b.Alike b') (r : Reading) (d : Declaration) :
    r.attachModule b d = r.attachModule b' d := by
  have hleading : r.isLeadingComment b d = r.isLeadingComment b' d := by
    rw [Reading.isLeadingComment, Reading.isLeadingComment, h.classTag?_eq]
  simp only [Reading.attachModule, h.moduleTag?_eq, h.describe_eq, hleading]

theorem attachClass_eq (h : b.Alike b') (r : Reading) (t : Tag) (isEnum : Bool)
    (d : Declaration) (describesModule : Bool) :
    r.attachClass b t isEnum d describesModule = r.attachClass b' t isEnum d describesModule := by
  simp only [Reading.attachClass, h.descriptions_eq, h.tagsNamed_eq]

theorem functionDoc_eq (h : b.Alike b') (name : Text) (args : List Text) (isLocal : Bool) :
    functionDoc b name args isLocal = functionDoc b' name args isLocal := by
  have hvisibility : b.visibility? = b'.visibility? := by rw [visibility?, visibility?, h.tags]
  simp only [functionDoc, h.descriptions_eq, h.tagsNamed_eq, h.usageSample?_eq, hvisibility]

theorem attachFunction_eq (h : b.Alike b') (r : Reading) (d : Declaration) :
    r.attachFunction b d = r.attachFunction b' d := by
  cases d with
  | function owner name args isLocal =>
      simp only [Reading.attachFunction, h.functionDoc_eq]
  | assignment target => rfl
  | other => rfl

theorem attach_eq (h : b.Alike b') (r : Reading) (d : Declaration) :
    r.attach b d = r.attach b' d := by
  have hcheck : b.checkTags = b'.checkTags := by rw [checkTags, checkTags, h.tags]
  simp only [Reading.attach, hcheck, h.attachModule_eq, h.classTag?_eq, h.attachClass_eq,
    h.tag?_eq, h.attachFunction_eq]

end DocBlock.Alike

/-! ## Reading -/

namespace Reading

/-- States that differ in blanks of the open block only. -/
structure Alike (r r' : Reading) : Prop where
  rest : r' = { r with block := r'.block }
  block : Option.Rel DocBlock.Alike r.block r'.block

theorem Alike.refl (r : Reading) : r.Alike r where
  rest := rfl
  block := by
    cases r.block with
    | none => exact .none
    | some b => exact .some (.refl b)

theorem alike_setBlock (r : Reading) {b b' : DocBlock} (h : b.Alike b') (inUsage : Bool) :
    Alike { r with block := some b, inUsage } { r with block := some b', inUsage } :=
  ⟨rfl, .some h⟩

section

variable {r r' : Reading}

theorem Alike.exists_block (h : r.Alike r') :
    ∃ block', r' = { r with block := block' } ∧ Option.Rel DocBlock.Alike r.block block' :=
  ⟨r'.block, h.rest, h.block⟩

theorem Alike.openBlock (h : r.Alike r') (n : ℕ) : (r.openBlock n).Alike (r'.openBlock n) := by
  have hblock := h.block
  unfold Reading.openBlock
  generalize r.block = block at hblock ⊢
  generalize r'.block = block' at hblock ⊢
  cases hblock with
  | none => exact .refl _
  | some hb => exact hb

/-- Once its block is closed, a state shows no blanks any more. -/
theorem Alike.close_eq (h : r.Alike r') (d : Declaration) : r.close d = r'.close d := by
  obtain ⟨block', rfl, hblock⟩ := h.exists_block
  unfold close
  dsimp only
  generalize r.block = block at hblock ⊢
  cases hblock with
  | none => rfl
  | some hb => exact hb.attach_eq _ d

theorem Alike.finish_eq (h : r.Alike r') (name : Text) : r.finish name = r'.finish name := by
  rw [finish, finish, h.close_eq]

theorem Alike.addTag (h : r.Alike r') (n : ℕ) (name operand : Text) :
    (r.addTag n name operand).Alike (r'.addTag n name operand) := by
  have hopen := h.openBlock n
  obtain ⟨block', rfl, -⟩ := h.exists_block
  apply alike_setBlock r
  apply DocBlock.Alike.addTag
  split
  · exact hopen.openUsage operand
  · exact hopen

theorem Alike.addContent (h : r.Alike r') (n : ℕ) {content content' : Text}
    (hcontent : Padded content content') :
    (r.addContent n content).Alike (r'.addContent n content') := by
  have hopen := h.openBlock n
  obtain ⟨block', rfl, -⟩ := h.exists_block
  refine alike_setBlock r ?_ r.inUsage
  split
  · exact hopen.addUsage hcontent
  · exact hopen.addText hcontent

theorem Alike.addBreak (h : r.Alike r') :
    Alike { r with block := r.block.map (·.addText []) }
      { r' with block := r'.block.map (·.addText []) } := by
  obtain ⟨block', rfl, hblock⟩ := h.exists_block
  refine ⟨rfl, ?_⟩
  dsimp only
  generalize r.block = block at hblock ⊢
  cases hblock with
  | none => exact .none
  | some hb => exact .some (hb.addText (.refl []))

/-- A line leaves states alike, or takes them to the same end. -/
theorem readLine_alike (h : r.Alike r') {l l' : SourceLine} (hl : l.Alike l') (n : ℕ) :
    r.readLine (l, n) = r'.readLine (l', n) ∨
      ∃ s s', r.readLine (l, n) = .ok s ∧ r'.readLine (l', n) = .ok s' ∧ s.Alike s' := by
  cases hl with
  | separator => exact .inr ⟨_, _, rfl, rfl, h.addBreak⟩
  | tag name operand => exact .inr ⟨_, _, rfl, rfl, h.addTag n name operand⟩
  | text hcontent => exact .inr ⟨_, _, rfl, rfl, h.addContent n hcontent⟩
  | gap => exact .inl (h.close_eq .other)
  | code hdeclaration =>
      left
      simp only [readLine, hdeclaration, h.close_eq]

theorem foldlM_alike {ls ls' : List SourceLine} (hls : List.Forall₂ SourceLine.Alike ls ls')
    (h : r.Alike r') (n : ℕ) (name : Text) :
    ((ls.zipIdx n).foldlM readLine r >>= fun s => s.finish name) =
      (ls'.zipIdx n).foldlM readLine r' >>= fun s => s.finish name := by
  induction hls generalizing r r' n with
  | nil => exact h.finish_eq name
  | cons hl _ ih =>
      rw [List.zipIdx_cons, List.zipIdx_cons, List.foldlM_cons, List.foldlM_cons, bind_assoc,
        bind_assoc]
      rcases readLine_alike h hl n with heq | ⟨s, s', hs, hs', halike⟩
      · rw [heq]
        exact congrArg _ (funext fun s => ih (.refl s) (n + 1))
      · rw [hs, hs', ok_bind, ok_bind]
        exact ih halike (n + 1)

end

/-- Blank lines at the end close the last block, as the end of the source does. -/
theorem finish_gaps (r : Reading) {gaps : List PlacedLine} (h : ∀ l ∈ gaps, l.1 = .gap)
    (name : Text) : (gaps.foldlM readLine r >>= fun s => s.finish name) = r.finish name := by
  induction gaps generalizing r with
  | nil => rfl
  | cons l gaps ih =>
      rw [List.forall_mem_cons] at h
      have hread : r.readLine l = r.close .other := by rw [readLine, h.1]
      rw [List.foldlM_cons, bind_assoc, hread, finish]
      cases hclose : r.close .other with
      | error e => rfl
      | ok s =>
          rw [ok_bind, ok_bind, ih s h.2, finish_outside (outside_of_close hclose).1]
          rfl

end Reading

/-! ## Layouts -/

/-- The ends a line can have. -/
def lineEnds : List Text :=
  [['\n'], ['\r', '\n']]

/-- A source holds these lines, each with blanks on either side of it, and behind them
nothing but whitespace.  The last line may lack its end. -/
inductive LaidOut : List Text → Text → Prop
  | blank {rest : Text} (h : isBlankLine rest) : LaidOut [] rest
  | last {line before behind : Text} (hbefore : ∀ c ∈ before, isBlank c)
      (hbehind : ∀ c ∈ behind, isBlank c) (hne : before ++ (line ++ behind) ≠ []) :
      LaidOut [line] (before ++ (line ++ behind))
  | line {line before behind ending rest : Text} {ls : List Text}
      (hbefore : ∀ c ∈ before, isBlank c) (hbehind : ∀ c ∈ behind, isBlank c)
      (hending : ending ∈ lineEnds) (h : LaidOut ls rest) :
      LaidOut (line :: ls) (before ++ (line ++ behind) ++ (ending ++ rest))

/-- A line without line ends in it. -/
structure SingleLine (line : Text) : Prop where
  noFeed : '\n' ∉ line
  noReturn : '\r' ∉ line

theorem SingleLine.wrapped {line before behind : Text} (h : SingleLine line)
    (hbefore : ∀ c ∈ before, isBlank c) (hbehind : ∀ c ∈ behind, isBlank c) :
    SingleLine (before ++ (line ++ behind)) := by
  have hnot : ∀ {c : Char}, isBlank c = false → c ∉ line → c ∉ before ++ (line ++ behind) := by
    intro c hc hline hmem
    rcases List.mem_append.mp hmem with hmem | hmem
    · simpa [hc] using hbefore c hmem
    · rcases List.mem_append.mp hmem with hmem | hmem
      · exact hline hmem
      · simpa [hc] using hbehind c hmem
  exact ⟨hnot rfl h.noFeed, hnot rfl h.noReturn⟩

theorem SingleLine.lines_ended {line : Text} (h : SingleLine line) {ending : Text}
    (hending : ending ∈ lineEnds) (rest : Text) :
    lines (line ++ (ending ++ rest)) = line :: lines rest := by
  rcases List.mem_cons.mp hending with rfl | hending
  · have hlast : line.getLast? ≠ some '\r' := fun hlast => h.noReturn (List.mem_of_getLast? hlast)
    rw [List.singleton_append, lines_append_newline h.noFeed, dropCarriageReturn_of_ne hlast]
  · rw [List.mem_singleton.mp hending]
    have hreturn : '\n' ∉ line ++ ['\r'] := by simp [h.noFeed]
    have hline := lines_append_newline hreturn rest
    rwa [dropCarriageReturn_concat, List.append_assoc] at hline

theorem SingleLine.lines_eq {line : Text} (h : SingleLine line) (hne : line ≠ []) :
    lines line = [line] := by
  rw [lines, List.splitOn_eq_singleton h.noFeed]
  simp [linesOfPieces, hne]

theorem ofText_blankLine {line : Text} (h : isBlankLine line) : SourceLine.ofText line = .gap := by
  have hdash : ∀ c rest, skipBlanks line = c :: rest → c ≠ '-' := by
    rintro c rest hskip rfl
    have hmem : '-' ∈ skipBlanks line := by simp [hskip]
    exact absurd (List.all_eq_true.mp h '-' (List.dropWhile_subset isBlank hmem)) (by decide)
  have hgap : isGap line := by rw [isGap, trim_of_isBlankLine h]; rfl
  cases hskip : skipBlanks line with
  | nil => simp [SourceLine.ofText, isSeparator, docContent?, dropPrefix?, hskip, hgap]
  | cons c rest =>
      have hc := hdash c rest hskip
      simp [SourceLine.ofText, isSeparator, docContent?, dropPrefix?, hskip, hgap, hc, hc.symm]

/-- The lines of a layout mean what the bare lines mean, and behind them are gaps. -/
theorem LaidOut.sourceLines {ls : List Text} {source : Text} (h : LaidOut ls source)
    (hls : ∀ line ∈ ls, SingleLine line) :
    ∃ front gaps, (lines source).map SourceLine.ofText = front ++ gaps ∧
      List.Forall₂ SourceLine.Alike (ls.map SourceLine.ofText) front ∧
        ∀ l ∈ gaps, l = .gap := by
  induction h with
  | @blank rest hblank =>
      refine ⟨[], _, rfl, .nil, ?_⟩
      rw [List.forall_mem_map]
      intro line hline
      apply ofText_blankLine
      rw [isBlankLine, List.all_eq_true] at hblank ⊢
      exact fun c hc => hblank c (mem_of_mem_lines hline hc)
  | @last line before behind hbefore hbehind hne =>
      have hline := (hls line (by simp)).wrapped hbefore hbehind
      refine ⟨[SourceLine.ofText (before ++ (line ++ behind))], [], ?_, ?_, by simp⟩
      · rw [hline.lines_eq hne]
        rfl
      · exact .cons (ofText_wrapped line hbefore hbehind) .nil
  | @line line before behind ending rest ls hbefore hbehind hending _ ih =>
      rw [List.forall_mem_cons] at hls
      obtain ⟨front, gaps, hrest, hfront, hgaps⟩ := ih hls.2
      have hline := hls.1.wrapped hbefore hbehind
      refine ⟨_ :: front, gaps, ?_, .cons (ofText_wrapped line hbefore hbehind) hfront, hgaps⟩
      rw [hline.lines_ended hending, List.map_cons, hrest, List.cons_append]

/-- A layout is read as its bare lines are. -/
theorem LaidOut.readSource_eq {ls : List Text} {source : Text} (h : LaidOut ls source)
    (hls : ∀ line ∈ ls, SingleLine line) (name : Text) :
    readSource name source =
      (((ls.map SourceLine.ofText).zipIdx 1).foldlM Reading.readLine ({} : Reading) >>=
        fun s => s.finish name) := by
  obtain ⟨front, gaps, hlines, hfront, hgaps⟩ := h.sourceLines hls
  have hplaced : placedLines source = (front ++ gaps).zipIdx 1 := by
    rw [placedLines, numberedLines, ← hlines, List.zipIdx_map]
    rfl
  have hend : ∀ l ∈ gaps.zipIdx (1 + front.length), l.1 = .gap :=
    fun l hl => hgaps l.1 (List.fst_mem_of_mem_zipIdx hl)
  rw [readSource, Reading.run_numberedLines, hplaced, List.zipIdx_append, List.foldlM_append,
    bind_assoc]
  simp only [Reading.finish_gaps _ hend]
  exact (Reading.foldlM_alike hfront (.refl _) 1 name).symm

/-- Two layouts of the same lines document the same. -/
theorem readAt_laidOut {ls : List Text} (hls : ∀ line ∈ ls, '\n' ∉ line ∧ '\r' ∉ line)
    {source source' : Text} (h : LaidOut ls source) (h' : LaidOut ls source') (path : Text) :
    readAt path source = readAt path source' := by
  have hsingle : ∀ line ∈ ls, SingleLine line := fun line hl => ⟨(hls line hl).1, (hls line hl).2⟩
  rw [readAt, readAt, h.readSource_eq hsingle, h'.readSource_eq hsingle]

/-- A method with its usage, as it is typed and with other line ends, trailing blanks and
blank lines at the end. -/
theorem readAt_laidOut_method :
    let ls := ["--- Adds.".toList, "--- @usage".toList, "---   a:add(1)".toList, "---".toList,
      "function A:add(x)".toList]
    let source :=
      "--- Adds.\n--- @usage\n---   a:add(1)\n---\n  function A:add(x)\n".toList
    let source' :=
      " --- Adds. \r\n\t--- @usage\t\n---   a:add(1) \r\n--- \nfunction A:add(x) \n\n\t".toList
    (∀ line ∈ ls, '\n' ∉ line ∧ '\r' ∉ line) ∧ LaidOut ls source ∧ LaidOut ls source' ∧
      readAt "a.lua".toList source = readAt "a.lua".toList source' := by
  intro ls source source'
  have hls : ∀ line ∈ ls, '\n' ∉ line ∧ '\r' ∉ line := by decide
  have hplain : ∀ c ∈ ([] : Text), isBlank c := by simp
  have hspace : ∀ c ∈ [' '], isBlank c := by simp [isBlank]
  have hindent : ∀ c ∈ [' ', ' '], isBlank c := by simp [isBlank]
  have htab : ∀ c ∈ ['\t'], isBlank c := by simp [isBlank]
  have hfeed : ['\n'] ∈ lineEnds := by decide
  have hreturn : ['\r', '\n'] ∈ lineEnds := by decide
  have h : LaidOut ls source :=
    .line hplain hplain hfeed <|
    .line hplain hplain hfeed <|
    .line hplain hplain hfeed <|
    .line hplain hplain hfeed <|
    .line hindent hplain hfeed <|
    .blank rfl
  have h' : LaidOut ls source' :=
    .line hspace hspace hreturn <|
    .line htab htab hfeed <|
    .line hplain hspace hreturn <|
    .line hplain hspace hfeed <|
    .line hplain hspace hfeed <|
    @LaidOut.blank ['\n', '\t'] rfl
  exact ⟨hls, h, h', readAt_laidOut hls h h' "a.lua".toList⟩

end DocComment
end ApiManual
