import ApiManual.Markdown
import ApiManual.Proofs.Text.Edges

/-!
# Fenced code

A fenced block is read back from its lines: the first one opens a fence of backticks, and
the first later line that is a fence of at least as many closes it.  The fences of a code
block have three backticks whatever stands between them, so the code is read back exactly
when none of its own lines closes such a fence.
-/

namespace ApiManual
namespace Markdown

open ApiManual.Text

/-! ## Reading a fence -/

/-- The number of backticks that open a fence.  What follows them has no backticks. -/
def fenceWidth? (line : Text) : Option ℕ :=
  let marks := line.takeWhile (· = '`')
  if 3 ≤ marks.length ∧ '`' ∉ line.drop marks.length then some marks.length else none

/-- At most three spaces, then at least `width` backticks, then nothing but blanks. -/
def closesFence (width : ℕ) (line : Text) : Bool :=
  let marked := line.dropWhile (· = ' ')
  (line.takeWhile (· = ' ')).length ≤ 3 && width ≤ (marked.takeWhile (· = '`')).length &&
    (marked.dropWhile (· = '`')).all isBlank

/-- The lines in front of the first one that closes the fence, and those behind that one. -/
def untilClosed? (width : ℕ) (lines : List Text) : Option (List Text × List Text) :=
  match lines.dropWhile (!closesFence width ·) with
  | [] => none
  | _ :: behind => some (lines.takeWhile (!closesFence width ·), behind)

/-- The code in the fence that a text begins with, and the lines behind the fence. -/
def readFence? (text : Text) : Option (Text × List Text) :=
  match text.splitOn '\n' with
  | [] => none
  | opening :: lines => do
    let width ← fenceWidth? opening
    let (code, behind) ← untilClosed? width lines
    return (join ['\n'] code, behind)

/-! ## Reading back -/

section
variable {width : ℕ} {closing : Text}

theorem untilClosed?_of_open (hclosing : closesFence width closing) {code : List Text}
    (hcode : ∀ line ∈ code, closesFence width line = false) (behind : List Text) :
    untilClosed? width (code ++ closing :: behind) = some (code, behind) := by
  have hopen : ∀ line ∈ code, !closesFence width line := by simpa using hcode
  have hstop : (!closesFence width closing) = false := by simp [hclosing]
  rw [untilClosed?, dropWhile_append_cons hopen hstop, takeWhile_append_cons hopen hstop]

/-- A line of the code that closes the fence leaves the rest of the code behind it. -/
theorem exists_untilClosed?_of_closed {code : List Text}
    (hcode : ∃ line ∈ code, closesFence width line) (closing : Text) (behind : List Text) :
    ∃ inside more, untilClosed? width (code ++ closing :: behind) =
      some (inside, more ++ closing :: behind) := by
  obtain ⟨inside, first, more, rfl, hcloses, hinside⟩ := exists_first hcode
  refine ⟨inside, more, ?_⟩
  rw [List.append_assoc, List.cons_append]
  exact untilClosed?_of_open hcloses hinside _

end

theorem fenceWidth?_code {language : Text} (h : '`' ∉ language) :
    fenceWidth? ("```".toList ++ language) = some 3 := by
  have hmarks : ("```".toList ++ language).takeWhile (· = '`') = "```".toList := by
    apply takeWhile_append_stop (by simp)
    intro c hc
    have hne : c ≠ '`' := by
      rintro rfl
      exact h (List.mem_of_mem_head? hc)
    simpa using hne
  have hdrop : ("```".toList ++ language).drop "```".toList.length = language := List.drop_left
  simp only [fenceWidth?, hmarks, hdrop]
  rw [if_pos ⟨by decide, h⟩]
  rfl

/-- The text of a code block, which has no empty lines at its end. -/
def codeText (text : Text) : Text :=
  dropEndWhile (· = '\n') text

section
variable {language : Text} (text : Text)

theorem splitOn_render_code (hlanguage : '\n' ∉ language) :
    (Block.code language text).render.splitOn '\n' =
      ("```".toList ++ language) :: ((codeText text).splitOn '\n' ++ ["```".toList]) := by
  have hopening : '\n' ∉ "```".toList ++ language := by
    rw [List.mem_append, not_or]
    exact ⟨by decide, hlanguage⟩
  have hrender : (Block.code language text).render =
      ("```".toList ++ language) ++ '\n' :: (codeText text ++ '\n' :: "```".toList) := by
    simp [Block.render, codeText]
  have hclosing : "```".toList.splitOn '\n' = ["```".toList] := by decide
  rw [hrender, List.splitOn_append_cons_self_of_not_mem hopening, List.splitOn_append_cons_self,
    hclosing]

/-- The lines behind a code block are behind its fence exactly when no line of the code closes
the fence. -/
theorem readFence?_lines (hlanguage : ∀ c ∈ language, c ≠ '`' ∧ c ≠ '\n') {block : Text}
    {behind : List Text} (hblock : block.splitOn '\n' =
      ("```".toList ++ language) :: ((codeText text).splitOn '\n' ++ "```".toList :: behind)) :
    readFence? block = some (codeText text, behind) ↔
      ∀ line ∈ (codeText text).splitOn '\n', closesFence 3 line = false := by
  have hwidth := fenceWidth?_code fun hmem => (hlanguage '`' hmem).1 rfl
  have hclosing : closesFence 3 "```".toList := by decide
  simp only [readFence?, hblock, hwidth, Option.bind_eq_bind, Option.bind_some]
  by_cases hcode : ∃ line ∈ (codeText text).splitOn '\n', closesFence 3 line
  · obtain ⟨line, hline, hcloses⟩ := hcode
    obtain ⟨inside, more, hread⟩ :=
      exists_untilClosed?_of_closed ⟨line, hline, hcloses⟩ "```".toList behind
    apply iff_of_false
    · intro hwhole
      rw [hread] at hwhole
      have hlength := congrArg List.length (Prod.mk.inj (Option.some.inj hwhole)).2
      rw [List.length_append, List.length_cons] at hlength
      omega
    · exact fun hopen => by simp [hopen line hline] at hcloses
  · have hopen : ∀ line ∈ (codeText text).splitOn '\n', closesFence 3 line = false := by
      simpa using hcode
    apply iff_of_true _ hopen
    rw [untilClosed?_of_open hclosing hopen, Option.bind_some, join_splitOn]
    rfl

end

end Markdown
end ApiManual
