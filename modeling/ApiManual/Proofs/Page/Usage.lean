import ApiManual.Proofs.Markdown.Fence
import ApiManual.Proofs.Page.Members

/-!
# Usage samples on a page

The page of a module prints the usage sample of each function it describes as a code block
between empty lines.  Where no line of the sample closes a fence of three backticks, the
whole sample is in the fence and the page goes on behind it.  A sample that holds such a
fence itself ends the block early.
-/

namespace ApiManual

open Markdown

/-- The functions that have a section on the page of the module. -/
def ModuleDoc.shownFunctions (m : ModuleDoc) : List FunctionDoc :=
  match m.primaryClass? with
  | some c => c.methods.filter (!·.isPrivate)
  | none =>
    (m.functions ++ (m.classes.filter (!·.isEnum)).flatMap (·.methods)).filter (!·.isPrivate)

namespace Page

open ApiManual.Symbol

theorem exists_functionSection (index : Index) {m : ModuleDoc} {f : FunctionDoc}
    (hf : f ∈ m.shownFunctions) :
    ∃ scope level, functionSection index scope level f <:+: ofModule index m := by
  unfold ModuleDoc.shownFunctions at hf
  cases hprimary : m.primaryClass? with
  | some c =>
      rw [hprimary] at hf
      obtain ⟨hmethod, hpublic⟩ := List.mem_filter.mp hf
      have hpublic : f.isPrivate = false := by simpa using hpublic
      have hpage : functionSections index (c.name ++ [':']) 2 c.methods <:+: ofModule index m := by
        rw [ofModule, hprimary]
        exact (List.suffix_append _ _).isInfix
      have hsection := infix_functionSections index (c.name ++ [':']) 2 hmethod hpublic
      exact ⟨_, _, hsection.trans hpage⟩
  | none =>
      have hpage : ofModule index m = plainModulePage index m := by rw [ofModule, hprimary]
      rw [hprimary] at hf
      obtain ⟨hmem, hpublic⟩ := List.mem_filter.mp hf
      have hpublic : f.isPrivate = false := by simpa using hpublic
      rw [hpage]
      rcases List.mem_append.mp hmem with hfunction | hmethod
      · exact ⟨_, _, function_infix_plainModulePage index hfunction hpublic⟩
      · obtain ⟨c, hc, hin⟩ := List.mem_flatMap.mp hmethod
        obtain ⟨hclass, henum⟩ := List.mem_filter.mp hc
        exact ⟨_, _, method_infix_plainModulePage index hclass (by simpa using henum) hin hpublic⟩

theorem luaCode_mem_functionSection (index : Index) (scope : Text) (level : ℕ) {f : FunctionDoc}
    {usage : Text} (h : f.usage = some usage) :
    luaCode usage ∈ functionSection index scope level f := by
  simp [functionSection, h]

/-- A code block is read back whole exactly when no line of the code closes its fence, and the
page of a module goes on behind the usage sample of each function it shows exactly when no
line of the sample does. -/
theorem readFence?_code_iff {language : Text} (hlanguage : ∀ c ∈ language, c ≠ '`' ∧ c ≠ '\n')
    (text : Text) (index : Index) (m : ModuleDoc) :
    (readFence? (Block.code language text).render = some (codeText text, []) ↔
        ∀ line ∈ (codeText text).splitOn '\n', closesFence 3 line = false) ∧
      ∀ f ∈ m.shownFunctions, ∀ usage ∈ f.usage, ∃ front back,
        Page.text index m = front ++ ((luaCode usage).render ++ '\n' :: back) ∧
        (front = [] ∨ ['\n', '\n'] <:+ front) ∧
        (readFence? ((luaCode usage).render ++ '\n' :: back) =
            some (codeText usage, back.splitOn '\n') ↔
          ∀ line ∈ (codeText usage).splitOn '\n', closesFence 3 line = false) := by
  have honeLine : '\n' ∉ language := fun hmem => (hlanguage '\n' hmem).2 rfl
  refine ⟨readFence?_lines text hlanguage (splitOn_render_code text honeLine), ?_⟩
  intro f hf usage husage
  have hlua : ∀ c ∈ "lua".toList, c ≠ '`' ∧ c ≠ '\n' := by simp
  obtain ⟨scope, level, hsection⟩ := exists_functionSection index hf
  obtain ⟨before, after, hpage⟩ := List.append_of_mem
    (hsection.subset (luaCode_mem_functionSection index scope level husage))
  have hinfix : [luaCode usage] <:+: ofModule index m := ⟨before, after, by rw [hpage]; simp⟩
  obtain ⟨front, back, htext, hends⟩ := shows_of_infix (by simp) hinfix
  rw [List.map_singleton, Text.join_singleton] at htext
  refine ⟨front, back, htext, hends, readFence?_lines usage hlua ?_⟩
  rw [List.splitOn_append_cons_self, luaCode, splitOn_render_code usage (by decide)]
  simp

/-- A sample that has a fence of its own. -/
def fencedSample : Text := "```\ndraw()\n```".toList

def plainSample : Text := "local c = canvas()\nc:draw()\n".toList

def drawFunction : FunctionDoc where
  name := "draw".toList
  usage := some fencedSample

def clearFunction : FunctionDoc where
  name := "clear".toList
  usage := some plainSample

def canvasModule : ModuleDoc where
  name := "canvas".toList
  functions := [drawFunction, clearFunction]

theorem shownFunctions_canvasModule :
    canvasModule.shownFunctions = [drawFunction, clearFunction] := rfl

theorem readFence?_plainSample :
    (∀ c ∈ "lua".toList, c ≠ '`' ∧ c ≠ '\n') ∧
      clearFunction ∈ canvasModule.shownFunctions ∧ clearFunction.usage = some plainSample ∧
      (∀ line ∈ (codeText plainSample).splitOn '\n', closesFence 3 line = false) ∧
      readFence? (Block.code "lua".toList plainSample).render = some (codeText plainSample, []) ∧
      ∃ front back,
        Page.text {} canvasModule = front ++ ((luaCode plainSample).render ++ '\n' :: back) ∧
        readFence? ((luaCode plainSample).render ++ '\n' :: back) =
          some (codeText plainSample, back.splitOn '\n') := by
  have hlanguage : ∀ c ∈ "lua".toList, c ≠ '`' ∧ c ≠ '\n' := by simp
  have hshown : clearFunction ∈ canvasModule.shownFunctions := by
    simp [shownFunctions_canvasModule]
  have hopen : ∀ line ∈ (codeText plainSample).splitOn '\n', closesFence 3 line = false := by
    decide
  obtain ⟨hblock, hpage⟩ := readFence?_code_iff hlanguage plainSample {} canvasModule
  obtain ⟨front, back, htext, -, hread⟩ := hpage clearFunction hshown plainSample rfl
  exact ⟨hlanguage, hshown, rfl, hopen, hblock.mpr hopen, front, back, htext, hread.mpr hopen⟩

/-- The block of a sample with a fence of its own ends at the first line of the sample. -/
theorem not_readFence?_fencedSample :
    drawFunction ∈ canvasModule.shownFunctions ∧ drawFunction.usage = some fencedSample ∧
      codeText fencedSample = fencedSample ∧
      readFence? (luaCode fencedSample).render =
        some ([], ["draw()".toList, "```".toList, "```".toList]) ∧
      readFence? (luaCode fencedSample).render ≠ some (codeText fencedSample, []) := by
  have hread : readFence? (luaCode fencedSample).render =
      some ([], ["draw()".toList, "```".toList, "```".toList]) := by decide
  refine ⟨by simp [shownFunctions_canvasModule], rfl, by decide, hread, ?_⟩
  rw [hread]
  decide

end Page
end ApiManual
