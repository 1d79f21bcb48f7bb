import ApiManual.Proofs.DocComment.Growth

/-!
# Faults and the lines they name

A fault of an annotation is found when its block is attached, lines behind the tag it is
about.  The tag has kept the number of its line until then, so the fault names that line,
and what it quotes stands there.
-/

namespace ApiManual

namespace DocComment

open ApiManual.Text

/-! ## Parts of operands -/

theorem suffix_nextPart? {s rest : Text} (h : nextPart? s = some rest) : rest <:+ s := by
  cases s with
  | nil =>
      cases h
      exact List.suffix_rfl
  | cons c s =>
      rw [nextPart?] at h
      split at h
      · cases h
        exact (List.dropWhile_suffix _).trans (List.suffix_cons c s)
      · cases h

theorem suffix_paramName? {s name rest : Text} (h : paramName? s = some (name, rest)) :
    rest <:+ s := by
  unfold paramName? at h
  split at h
  · cases h
    exact ⟨"...".toList, rfl⟩
  · split at h
    · cases h
      exact List.dropWhile_suffix _
    · cases h

theorem suffix_takeMark (s : Text) : (takeMark s).2 <:+ s := by
  unfold takeMark
  split
  · exact List.suffix_cons _ _
  · exact List.suffix_rfl

theorem suffix_takeDefault? {s rest : Text} {value : Option Text}
    (h : takeDefault? s = some (value, rest)) : rest <:+ s := by
  unfold takeDefault? at h
  split at h
  · simp only at h
    split at h
    · cases h
    · cases h
      exact (List.dropWhile_suffix _).trans (List.suffix_cons _ _)
  · cases h
    exact List.suffix_rfl

theorem suffix_rest_of_ofText? {s : Text} {o : ParamOperand} (h : ParamOperand.ofText? s = some o) :
    o.rest <:+ s := by
  unfold ParamOperand.ofText? at h
  obtain ⟨⟨name, behindName⟩, hname, h⟩ := Option.bind_eq_some_iff.mp h
  obtain ⟨⟨value, behindDefault⟩, hdefault, h⟩ := Option.bind_eq_some_iff.mp h
  obtain ⟨rest, hrest, h⟩ := Option.bind_eq_some_iff.mp h
  cases h
  exact (suffix_nextPart? hrest).trans ((suffix_takeDefault? hdefault).trans
    ((suffix_takeMark behindName).trans (suffix_paramName? hname)))

theorem suffix_keyword? {word s rest : Text} (h : keyword? word s = some rest) : rest <:+ s := by
  unfold keyword? at h
  split at h
  · rename_i c behind hbehind
    split at h
    · cases h
      exact (List.dropWhile_suffix _).trans
        ((List.suffix_cons c behind).trans (suffix_dropPrefix? hbehind))
    · cases h
  · cases h

theorem suffix_takeVisibility (s : Text) : (takeVisibility s).2 <:+ s := by
  simp only [takeVisibility, Option.getD]
  split
  · rename_i found hfound
    obtain ⟨⟨word, visibility⟩, -, hword⟩ := List.exists_of_findSome?_eq_some hfound
    obtain ⟨rest, hrest, rfl⟩ := Option.map_eq_some_iff.mp hword
    exact suffix_keyword? hrest
  · exact List.suffix_rfl

theorem infix_of_split {s type details : Text} (h : TypeExpr.split s = .ok (type, details)) :
    type <:+: s := by
  obtain ⟨rest, -, hsplit⟩ := exists_of_map_ok h
  cases hsplit
  exact (List.take_prefix _ _).isInfix.trans (List.dropWhile_suffix _).isInfix

theorem prefix_stripOptional (s : Text) : (TypeExpr.stripOptional s).1 <+: s := by
  unfold TypeExpr.stripOptional
  split
  · exact List.dropLast_prefix s
  · exact List.prefix_rfl

/-! ## Faults of a tag -/

/-- The line a fault names, unless it is about the source as a whole. -/
def Fault.line? : Fault → Option ℕ
  | .unknownTag line _ => some line
  | .missingOperand line _ _ => some line
  | .fieldOutsideClass line => some line
  | .malformedType line _ _ => some line
  | .classModuleWithoutClass _ => none

/-- The tags whose operands hold a type. -/
def typedTags : List Text :=
  ["param", "return", "field"].map String.toList

/-- The fault can be one of a tag with this name, and what it quotes stands in the text. -/
def Fault.Concerns (name text : Text) : Fault → Prop
  | .unknownTag _ tag => tag = name ∧ name ∉ documentedTags ∧ name ∉ ignoredTags
  | .missingOperand _ tag _ => tag = name
  | .fieldOutsideClass _ => name = "field".toList
  | .malformedType _ quoted _ => name ∈ typedTags ∧ quoted <:+: text
  | .classModuleWithoutClass _ => False

theorem Fault.Concerns.mono {name text text' : Text} (h : text <:+: text') {e : Fault}
    (he : e.Concerns name text) : e.Concerns name text' := by
  cases e with
  | malformedType line quoted reason => exact ⟨he.1, he.2.trans h⟩
  | unknownTag | missingOperand | fieldOutsideClass | classModuleWithoutClass => exact he

namespace Tag

def Raises (t : Tag) (e : Fault) : Prop :=
  e.line? = some t.line ∧ e.Concerns t.name t.operand

variable {t : Tag} {e : Fault}

theorem raises_missing (t : Tag) (what : Missing) : t.Raises (t.missing what) :=
  ⟨rfl, rfl⟩

theorem raises_malformed (ht : t.name ∈ typedTags) {text : Text} (htext : text <:+: t.operand)
    (reason : TypeError) : t.Raises (t.malformed text reason) :=
  ⟨rfl, ht, htext⟩

theorem raises_splitType (ht : t.name ∈ typedTags) {operand : Text}
    (hoperand : operand <:+: t.operand) (h : t.splitType operand = .error e) : t.Raises e := by
  obtain ⟨reason, -, rfl⟩ := exists_of_mapError_error h
  exact raises_malformed ht hoperand reason

theorem raises_parseType (ht : t.name ∈ typedTags) {text : Text} (htext : text <:+: t.operand)
    (h : t.parseType text = .error e) : t.Raises e := by
  obtain ⟨reason, -, rfl⟩ := exists_of_mapError_error h
  exact raises_malformed ht htext reason

end Tag

section Readers

variable {t : Tag} {e : Fault}

theorem raises_className (h : className t = .error e) : t.Raises e := by
  unfold className at h
  simp only at h
  split at h
  · cases h
    exact t.raises_missing .name
  · cases h

theorem raises_moduleName (h : moduleName t = .error e) : t.Raises e := by
  unfold moduleName at h
  split at h
  · cases h
  · cases h
    exact t.raises_missing .name

theorem raises_paramDoc (ht : t.name = "param".toList) (h : paramDoc t = .error e) :
    t.Raises e := by
  have htyped : t.name ∈ typedTags := by
    rw [ht]
    decide
  unfold paramDoc at h
  split at h
  · cases h
    exact t.raises_missing .name
  · rename_i operand hoperand
    have hrest := (suffix_rest_of_ofText? hoperand).isInfix
    rcases error_cases_of_bind h with hsplit | ⟨⟨type, details⟩, hsplit, h⟩
    · exact Tag.raises_splitType htyped hrest hsplit
    · simp only at h
      split at h
      · cases h
        exact t.raises_missing .type
      · have htype := (infix_of_split (of_mapError_ok hsplit)).trans hrest
        rcases error_cases_of_bind h with hparse | ⟨type', -, h⟩
        · exact Tag.raises_parseType htyped ((prefix_stripOptional type).isInfix.trans htype) hparse
        · cases h

theorem raises_returnDoc (ht : t.name = "return".toList) (h : returnDoc t = .error e) :
    t.Raises e := by
  have htyped : t.name ∈ typedTags := by
    rw [ht]
    decide
  unfold returnDoc at h
  rcases error_cases_of_bind h with hsplit | ⟨⟨type, details⟩, hsplit, h⟩
  · exact Tag.raises_splitType htyped List.infix_rfl hsplit
  · simp only at h
    split at h
    · cases h
      exact t.raises_missing .type
    · have htype := infix_of_split (of_mapError_ok hsplit)
      rcases error_cases_of_bind h with hparse | ⟨type', -, h⟩
      · exact Tag.raises_parseType htyped htype hparse
      · cases h

theorem raises_fieldDoc (ht : t.name = "field".toList) {isEnum : Bool}
    (h : fieldDoc isEnum t = .error e) : t.Raises e := by
  have htyped : t.name ∈ typedTags := by
    rw [ht]
    decide
  unfold fieldDoc at h
  split at h
  · cases h
    exact t.raises_missing .name
  · simp only at h
    split at h
    · cases h
    · have hrest : skipBlanks ((takeVisibility t.operand).2.dropWhile (!isBlank ·)) <:+: t.operand :=
        ((List.dropWhile_suffix _).trans ((List.dropWhile_suffix _).trans
          (suffix_takeVisibility t.operand))).isInfix
      rcases error_cases_of_bind h with hsplit | ⟨⟨type, details⟩, hsplit, h⟩
      · exact Tag.raises_splitType htyped hrest hsplit
      · simp only at h
        split at h
        · cases h
        · have htype := (infix_of_split (of_mapError_ok hsplit)).trans hrest
          rcases error_cases_of_bind h with hparse | ⟨type', -, h⟩
          · exact Tag.raises_parseType htyped htype hparse
          · cases h

end Readers

/-! ## Faults of a block -/

section Blocks

variable {b : DocBlock} {t : Tag} {e : Fault}

theorem mem_of_tag? {name : Text} (h : b.tag? name = some t) : t ∈ b.tags ∧ t.name = name :=
  ⟨List.mem_of_find?_eq_some h, by simpa using List.find?_some h⟩

theorem mem_of_mem_tagsNamed {name : Text} (h : t ∈ b.tagsNamed name) :
    t ∈ b.tags ∧ t.name = name := by
  simpa [DocBlock.tagsNamed] using h

theorem mem_of_either_tag? {first second : Text} {p q kind : Bool}
    (h : ((b.tag? first).map (·, p)).or ((b.tag? second).map (·, q)) = some (t, kind)) :
    t ∈ b.tags := by
  rcases Option.or_eq_some_iff.mp h with hfirst | ⟨-, hsecond⟩
  · obtain ⟨tag, htag, hpair⟩ := Option.map_eq_some_iff.mp hfirst
    cases hpair
    exact (mem_of_tag? htag).1
  · obtain ⟨tag, htag, hpair⟩ := Option.map_eq_some_iff.mp hsecond
    cases hpair
    exact (mem_of_tag? htag).1

/-- A tag of the block raises the fault. -/
def DocBlock.Raises (b : DocBlock) (e : Fault) : Prop :=
  ∃ t ∈ b.tags, t.Raises e

theorem raises_checkTags (h : b.checkTags = .error e) : b.Raises e := by
  unfold DocBlock.checkTags at h
  split at h
  · rename_i t hfind
    cases h
    have hknown : documentedTags.contains t.name = false ∧ ignoredTags.contains t.name = false := by
      simpa [Tag.isKnown] using List.find?_some hfind
    refine ⟨t, List.mem_of_find?_eq_some hfind, rfl, rfl, ?_, ?_⟩
    · simpa using hknown.1
    · simpa using hknown.2
  · cases h

theorem raises_mapM {α : Type} {name : Text} {reader : Tag → Except Fault α}
    (hreader : ∀ t : Tag, t.name = name → ∀ e, reader t = .error e → t.Raises e)
    (h : (b.tagsNamed name).mapM reader = .error e) : b.Raises e := by
  obtain ⟨t, hmem, ht⟩ := exists_of_mapM_error h
  obtain ⟨htags, hname⟩ := mem_of_mem_tagsNamed hmem
  exact ⟨t, htags, hreader t hname e ht⟩

theorem raises_functionDoc {name : Text} {args : List Text} {isLocal : Bool}
    (h : functionDoc b name args isLocal = .error e) : b.Raises e := by
  unfold functionDoc at h
  rcases error_cases_of_bind h with hparams | ⟨documented, -, h⟩
  · exact raises_mapM (fun _ ht _ => raises_paramDoc ht) hparams
  · rcases error_cases_of_bind h with hreturns | ⟨returns, -, h⟩
    · exact raises_mapM (fun _ ht _ => raises_returnDoc ht) hreturns
    · cases h

namespace Reading

variable {r : Reading} {d : Declaration}

theorem raises_attachModule (h : r.attachModule b d = .error e) : b.Raises e := by
  unfold attachModule at h
  split at h
  · rename_i t isClassModule htag
    rcases error_cases_of_bind h with hname | ⟨name, -, h⟩
    · exact ⟨t, mem_of_either_tag? htag, raises_moduleName hname⟩
    · cases h
  · split at h
    · cases h
    · cases h

theorem raises_attachClass {isEnum describes : Bool} (ht : t ∈ b.tags)
    (h : r.attachClass b t isEnum d describes = .error e) : b.Raises e := by
  unfold attachClass at h
  rcases error_cases_of_bind h with hname | ⟨name, -, h⟩
  · exact ⟨t, ht, raises_className hname⟩
  · rcases error_cases_of_bind h with hfields | ⟨fields, -, h⟩
    · exact raises_mapM (fun _ ht _ => raises_fieldDoc ht) hfields
    · cases h

theorem raises_attachFunction (h : r.attachFunction b d = .error e) : b.Raises e := by
  unfold attachFunction at h
  split at h
  · rcases error_cases_of_bind h with hdoc | ⟨f, -, h⟩
    · exact raises_functionDoc hdoc
    · split at h
      · cases h
      · cases h
  · cases h

/-- Whatever goes wrong with a block goes wrong with one of its tags. -/
theorem raises_attach (h : r.attach b d = .error e) : b.Raises e := by
  unfold attach at h
  rcases error_cases_of_bind h with htags | ⟨_, -, h⟩
  · exact raises_checkTags htags
  · rcases error_cases_of_bind h with hmodule | ⟨⟨s, describes⟩, -, h⟩
    · exact raises_attachModule hmodule
    · simp only at h
      split at h
      · rename_i htag
        exact raises_attachClass (mem_of_either_tag? htag) h
      · split at h
        · rename_i t hfield
          cases h
          obtain ⟨ht, hname⟩ := mem_of_tag? hfield
          exact ⟨t, ht, rfl, hname⟩
        · exact raises_attachFunction h

theorem line?_of_conclude {name : Text} (h : r.conclude name = .error e) : e.line? = none := by
  unfold conclude at h
  simp only at h
  split at h
  · cases h
    rfl
  · cases h

end Reading

end Blocks

/-! ## Faults of a source -/

theorem exists_tag_of_readBlocks {name : Text} {ls : List PlacedLine} {e : Fault} {n : ℕ}
    (h : readBlocks name ls = .error e) (hn : e.line? = some n) :
    ∃ t : Tag, (.tag t.name t.operand, t.line) ∈ ls ∧ t.Raises e := by
  rcases error_cases_of_bind h with hrun | ⟨r, -, hend⟩
  · obtain ⟨b, hb, r, hattach⟩ := exists_of_foldlM_error hrun
    obtain ⟨t, ht, hraises⟩ := Reading.raises_attach hattach
    exact ⟨t, lines_subset_of_mem_cutBlocks hb (mem_of_mem_tags ht), hraises⟩
  · rw [Reading.line?_of_conclude hend] at hn
    cases hn

theorem exists_line_of_mem_placedLines {source : Text} {l : SourceLine} {n : ℕ}
    (h : (l, n) ∈ placedLines source) :
    ∃ line, 1 ≤ n ∧ (lines source)[n - 1]? = some line ∧ SourceLine.ofText line = l := by
  obtain ⟨⟨line, number⟩, hline, hpair⟩ := List.mem_map.mp h
  cases hpair
  obtain ⟨hfirst, hget⟩ := List.mk_mem_zipIdx_iff_le_and_getElem?_sub.mp hline
  exact ⟨line, hfirst, hget, rfl⟩

theorem infix_of_tag? {content name operand : Text} (h : tag? content = some (name, operand)) :
    '@' :: name <:+: content ∧ operand <:+: content := by
  unfold tag? at h
  split at h
  · rename_i rest htrim
    have hcontent : '@' :: rest <:+: content := htrim ▸ infix_trim content
    have hname : '@' :: rest.takeWhile isTagChar <:+: content :=
      (List.prefix_cons_inj '@' |>.mpr (List.takeWhile_prefix _)).isInfix.trans hcontent
    simp only at h
    split at h
    · cases h
    · cases h
      exact ⟨hname, List.nil_infix⟩
    · rename_i c behind hbehind _
      split at h
      · cases h
        refine ⟨hname, (infix_trim behind).trans (.trans ?_ hcontent)⟩
        have hsuffix : c :: behind <:+ rest := hbehind ▸ List.dropWhile_suffix _
        exact ((List.suffix_cons c behind).trans (hsuffix.trans (List.suffix_cons _ _))).isInfix
      · cases h
  · cases h

theorem suffix_docContent? {line content : Text} (h : docContent? line = some content) :
    content <:+ line := by
  obtain ⟨rest, hrest, rfl⟩ := Option.map_eq_some_iff.mp h
  have hline : rest <:+ line := (suffix_dropPrefix? hrest).trans (List.dropWhile_suffix _)
  unfold dropBlank
  split
  · split
    · exact (List.suffix_cons _ _).trans hline
    · exact hline
  · exact hline

theorem infix_of_ofText {line name operand : Text} (h : SourceLine.ofText line = .tag name operand) :
    '@' :: name <:+: line ∧ operand <:+: line := by
  unfold SourceLine.ofText at h
  split at h
  · cases h
  · split at h
    · rename_i content hcontent
      have hline := (suffix_docContent? hcontent).isInfix
      split at h
      · rename_i htag
        cases h
        obtain ⟨hname, hoperand⟩ := infix_of_tag? htag
        exact ⟨hname.trans hline, hoperand.trans hline⟩
      · cases h
    · split at h
      · cases h
      · cases h

/-- A fault that names a line names one with a tag it can be about, quotes nothing but what
stands there, and stays when text is added behind a blank line. -/
theorem readAt_fault {path source : Text} {e : Fault} {n : ℕ} (h : readAt path source = .error e)
    (hn : e.line? = some n) :
    (∃ line name operand, 1 ≤ n ∧ (lines source)[n - 1]? = some line ∧
      SourceLine.ofText line = .tag name operand ∧ '@' :: name <:+: line ∧
      e.Concerns name line) ∧
    (EndsBlank source → ∀ behind, readAt path (source ++ behind) = .error e) := by
  constructor
  · rw [readAt, readSource_eq_readBlocks] at h
    obtain ⟨t, hplaced, hline, hconcerns⟩ := exists_tag_of_readBlocks h hn
    cases hn.symm.trans hline
    obtain ⟨line, hfirst, hget, htag⟩ := exists_line_of_mem_placedLines hplaced
    obtain ⟨hname, hoperand⟩ := infix_of_ofText htag
    exact ⟨line, t.name, t.operand, hfirst, hget, htag, hname, hconcerns.mono hoperand⟩
  · intro hends behind
    obtain ⟨later, hlater⟩ := placedLines_append hends.1 behind
    rw [readAt, readSource, Reading.run_numberedLines] at h ⊢
    rw [hlater, List.foldlM_append, bind_assoc]
    rcases error_cases_of_bind h with hrun | ⟨r, hrun, hend⟩
    · rw [hrun]
      rfl
    · -- What is found at the end of the source names no line.
      have hout := Reading.outside_of_foldlM ⟨rfl, rfl⟩ (not_endInBlock hends) hrun
      rw [Reading.finish_outside hout] at hend
      rw [Reading.line?_of_conclude hend] at hn
      cases hn

/-- A block with two faults, of which the second is found first. -/
def tornSource : Text :=
  "---@return fun(\n".toList ++ "---@param w fun(a: T The size\n".toList ++
    "function f(w) end\n\n".toList

theorem readAt_fault_torn :
    let path := "box.lua".toList
    let type := "fun(a: T The size".toList
    let e : Fault := .malformedType 2 type .unbalanced
    readAt path tornSource = .error e ∧ e.line? = some 2 ∧
      (∃ line name operand, 1 ≤ 2 ∧ (lines tornSource)[2 - 1]? = some line ∧
        SourceLine.ofText line = .tag name operand ∧ '@' :: name <:+: line ∧
        e.Concerns name line) ∧
      EndsBlank tornSource ∧ ∀ behind, readAt path (tornSource ++ behind) = .error e := by
  intro path type e
  obtain ⟨hmap, hfeed, hlast⟩ : (readAt path tornSource).map (fun _ => ()) = .error e ∧
      tornSource.getLast? = some '\n' ∧ (lines tornSource).getLast? = some [] := by
    decide +kernel
  have hread : readAt path tornSource = .error e := of_map_error hmap
  have hends : EndsBlank tornSource := ⟨hfeed, [], hlast, rfl⟩
  obtain ⟨hline, hstable⟩ := readAt_fault hread rfl
  exact ⟨hread, rfl, hline, hends, hstable hends⟩

end DocComment
end ApiManual
