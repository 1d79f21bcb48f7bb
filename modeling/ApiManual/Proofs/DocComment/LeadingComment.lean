import ApiManual.Proofs.DocComment.Attribution
import ApiManual.Proofs.DocComment.RoundTrip

/-!
# Leading comments

Without a tag that names the module, its description is the comment at the head of the
source.  Only one block is in question for it, the first one that belongs to no class:
whatever keeps this block from describing the module keeps all blocks below it.
-/

namespace ApiManual
namespace DocComment

/-! ## Code above a block -/

theorem sawCode_of_before {b : PlacedBlock} {front : List PlacedLine} (h : front <+: b.before)
    (hcode : front.any (·.1.isCode)) : b.sawCode := by
  obtain ⟨behind, hbefore⟩ := h
  rw [PlacedBlock.sawCode, ← hbefore]
  simp [hcode]

theorem isCode_of_isFunction {l : SourceLine} (h : l.declaration.isFunction) : l.isCode := by
  cases l <;> first | rfl | cases h

/-- Below a block that has code above it or a function behind it there is code above every
block. -/
theorem pairwise_sawCode (before ls : List PlacedLine) :
    (cutBlocks before ls).Pairwise fun b later =>
      (b.sawCode ∨ b.declaration.isFunction) → later.sawCode := by
  fun_induction cutBlocks before ls with
  | case1 before => exact .nil
  | case2 before l ls hdoc lines behind =>
      rename_i ih
      refine List.pairwise_cons.mpr ⟨?_, ih⟩
      intro later hlater hb
      rcases hb with hcode | hfunction
      · exact sawCode_of_before (before_of_mem_cutBlocks hlater) hcode
      · -- The function behind the block is code above all that follows.
        cases hbehind : behind with
        | nil => simp [PlacedBlock.declaration, hbehind, Declaration.isFunction] at hfunction
        | cons next rest =>
            have hnext : next.1.isCode := by
              apply isCode_of_isFunction
              simpa [PlacedBlock.declaration, hbehind] using hfunction
            have hdoc : next.1.isDoc = false := by
              cases h : next.1 <;> simp_all [SourceLine.isCode, SourceLine.isDoc]
            rw [hbehind, cutBlocks_of_not_isDoc hdoc] at hlater
            refine sawCode_of_before (before_of_mem_cutBlocks hlater) ?_
            simp [hnext]
  | case3 before l ls hdoc ih => exact ih

/-! ## The description of the module -/

namespace Reading

variable {r r' : Reading}

def description (r : Reading) : Text × Text :=
  (r.doc.summary, r.doc.details)

theorem description_of_attach {b : DocBlock} {d : Declaration} (hmodule : b.moduleTag? = none)
    (h : r.attach b d = .ok r') :
    r'.description = (if r.isLeadingComment b d then b.descriptions else r.description) ∧
      r'.described = (r.described || r.isLeadingComment b d) := by
  obtain ⟨s, describes, hs, hframe⟩ := exists_sameFrame_of_attach h
  rw [SameFrame] at hframe
  rw [hframe]
  rw [attachModule, hmodule] at hs
  simp only at hs
  split at hs
  · rename_i hleading
    cases hs
    simp [hleading, description, describe]
  · rename_i hleading
    cases hs
    simp [hleading, description]

end Reading

namespace PlacedBlock

def descriptions (b : PlacedBlock) : Text × Text :=
  (blockOf b.lines).descriptions

/-- The block stands above all code and belongs to no class and no function. -/
def isLeading (b : PlacedBlock) : Bool :=
  !b.sawCode && b.classTag?.isNone && !b.declaration.isFunction

end PlacedBlock

/-- The description comes from the first block that can give it, unless it is there already. -/
theorem description_of_foldlM {blocks : List PlacedBlock} {r r' : Reading}
    (hmodule : ∀ b ∈ blocks, (blockOf b.lines).moduleTag? = none)
    (h : blocks.foldlM PlacedBlock.attach r = .ok r') :
    r'.description =
      if r.described then r.description
      else ((blocks.find? (·.isLeading)).map PlacedBlock.descriptions).getD r.description := by
  induction blocks generalizing r with
  | nil =>
      cases h
      simp
  | cons b blocks ih =>
      rw [List.forall_mem_cons] at hmodule
      rw [List.foldlM_cons] at h
      obtain ⟨s, hattach, hrest⟩ := exists_of_bind_ok h
      obtain ⟨hdescription, hdescribed⟩ := Reading.description_of_attach hmodule.1 hattach
      have hleading : ({ r with sawCode := b.sawCode } : Reading).isLeadingComment
          (blockOf b.lines) b.declaration = (!r.described && b.isLeading) := by
        simp [Reading.isLeadingComment, PlacedBlock.isLeading, PlacedBlock.classTag?,
          Bool.and_assoc]
      rw [hleading] at hdescription hdescribed
      rw [ih hmodule.2 hrest, hdescription, hdescribed, List.find?_cons]
      cases hr : r.described with
      | true => simp [Reading.description]
      | false =>
          cases hb : b.isLeading with
          | true => simp [PlacedBlock.descriptions]
          | false => simp [Reading.description]

/-- Only the first block that belongs to no class can describe the module. -/
theorem find?_isLeading {blocks : List PlacedBlock}
    (h : blocks.Pairwise fun b later =>
      (b.sawCode ∨ b.declaration.isFunction) → later.sawCode) :
    blocks.find? (·.isLeading) =
      (blocks.find? (·.classTag?.isNone)).filter (·.isLeading) := by
  induction blocks with
  | nil => rfl
  | cons b blocks ih =>
      obtain ⟨hlater, hblocks⟩ := List.pairwise_cons.mp h
      rw [List.find?_cons, List.find?_cons]
      cases htag : b.classTag? with
      | some found =>
          have hb : b.isLeading = false := by simp [PlacedBlock.isLeading, htag]
          rw [hb]
          exact ih hblocks
      | none =>
          cases hb : b.isLeading with
          | true => simp [Option.filter_some, hb]
          | false =>
              have hstop : b.sawCode ∨ b.declaration.isFunction := by
                rw [PlacedBlock.isLeading, htag] at hb
                cases hcode : b.sawCode <;> simp_all
              have hnone : blocks.find? (·.isLeading) = none := by
                refine List.find?_eq_none.mpr fun later hmem => ?_
                simp [PlacedBlock.isLeading, hlater later hmem hstop]
              simp [Option.filter_some, hb, hnone]

/-! ## Sources -/

def SourceLine.namesModule : SourceLine → Bool
  | .tag name _ => name = "module".toList || name = "classmod".toList
  | _ => false

theorem moduleTag?_of_mem_cutBlocks {before ls : List PlacedLine}
    (hls : ∀ l ∈ ls, l.1.namesModule = false) {b : PlacedBlock} (hb : b ∈ cutBlocks before ls) :
    (blockOf b.lines).moduleTag? = none := by
  apply Reading.moduleTag?_eq_none
  intro t ht
  obtain ⟨tag, htag, rfl⟩ := List.mem_map.mp ht
  have hline := hls _ (lines_subset_of_mem_cutBlocks hb (mem_of_mem_tags htag))
  simpa [SourceLine.namesModule, -String.reduceToList] using hline

/-- In a source without a tag for the module only the first block that belongs to no class
can describe the module, and it does if it stands above all code and above no function. -/
theorem readAt_leadingComment {path source : Text} {m : ModuleDoc}
    (h : readAt path source = .ok m)
    (hsource : ∀ l ∈ placedLines source, l.1.namesModule = false) :
    (m.summary, m.details) =
      match (cutBlocks [] (placedLines source)).find? (·.classTag?.isNone) with
      | some b => if b.isLeading then b.descriptions else ([], [])
      | none => ([], []) := by
  rw [readAt, readSource_eq_readBlocks] at h
  obtain ⟨r, hrun, hm⟩ := exists_of_bind_ok h
  have hdescription := description_of_foldlM
    (fun b hb => moduleTag?_of_mem_cutBlocks hsource hb) hrun
  rw [find?_isLeading (pairwise_sawCode [] (placedLines source))] at hdescription
  rw [Reading.eq_of_conclude hm]
  change r.description = _
  rw [hdescription]
  cases hfirst : (cutBlocks [] (placedLines source)).find? (·.classTag?.isNone) with
  | none => rfl
  | some b =>
      cases hb : b.isLeading with
      | true => simp [Option.filter_some, hb]
      | false => simp [Option.filter_some, hb, Reading.description]

/-- A class above a comment on the whole source, and another comment below it. -/
def notesSource : Text :=
  "---@class Box\n\n--- Notes.\n---\n".toList ++ "--- More.\n\n--- Other.\n".toList

theorem readAt_leadingComment_notes :
    let path := "box.lua".toList
    ∃ m, readAt path notesSource = .ok m ∧
      (∀ l ∈ placedLines notesSource, l.1.namesModule = false) ∧
      (m.summary, m.details) = ("Notes.".toList, "More.".toList) ∧
      (m.summary, m.details) =
        match (cutBlocks [] (placedLines notesSource)).find? (·.classTag?.isNone) with
        | some b => if b.isLeading then b.descriptions else ([], [])
        | none => ([], []) := by
  intro path
  obtain ⟨hread, hsource⟩ : (readAt path notesSource).map (fun m => (m.summary, m.details)) =
        .ok ("Notes.".toList, "More.".toList) ∧
      ∀ l ∈ placedLines notesSource, l.1.namesModule = false := by
    decide +kernel
  obtain ⟨m, hm, hdescription⟩ := exists_of_map_ok hread
  exact ⟨m, hm, hsource, hdescription, readAt_leadingComment hm hsource⟩

/-- A class without a description and without code behind it, and a comment. -/
def bareClassSource : Text :=
  "---@class Box\n\n".toList ++ "--- Notes.\n".toList

/-- The second block of a source can describe the module in place of the first. -/
theorem not_first_block_bareClassSource :
    ∃ m b, readAt "box.lua".toList bareClassSource = .ok m ∧
      (∀ l ∈ placedLines bareClassSource, l.1.namesModule = false) ∧
      (cutBlocks [] (placedLines bareClassSource)).head? = some b ∧
      (m.summary, m.details) ≠ ([], []) ∧ (m.summary, m.details) ≠ b.descriptions := by
  obtain ⟨hread, hsource, hfirst⟩ :
      (readAt "box.lua".toList bareClassSource).map (fun m => (m.summary, m.details)) =
          .ok ("Notes.".toList, []) ∧
        (∀ l ∈ placedLines bareClassSource, l.1.namesModule = false) ∧
        (cutBlocks [] (placedLines bareClassSource)).head?.map PlacedBlock.descriptions =
          some ([], []) := by
    decide +kernel
  obtain ⟨m, hm, hdescription⟩ := exists_of_map_ok hread
  obtain ⟨b, hb, hnone⟩ := Option.map_eq_some_iff.mp hfirst
  refine ⟨m, b, hm, hsource, hb, ?_, ?_⟩
  · rw [hdescription]
    decide
  · rw [hdescription, hnone]
    decide

end DocComment
end ApiManual
