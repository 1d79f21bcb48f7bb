import ApiManual.Proofs.Text.Edges
import ApiManual.Text.Indent
import Mathlib.Data.List.Forall2

/-!
# Padding

Blanks at the end of a text pad it.  Cutting a text from the front leaves padded texts
padded, and trimming makes them equal.
-/

namespace ApiManual
namespace Text

/-- The second text is the first one with blanks behind it. -/
inductive Padded : Text → Text → Prop
  | blanks {padding : Text} (h : ∀ c ∈ padding, isBlank c) : Padded [] padding
  | cons (c : Char) {s s' : Text} (h : Padded s s') : Padded (c :: s) (c :: s')

namespace Padded

variable {s s' : Text}

theorem refl (s : Text) : Padded s s := by
  induction s with
  | nil => exact .blanks (by simp)
  | cons c s ih => exact .cons c ih

theorem append (s : Text) {padding : Text} (h : ∀ c ∈ padding, isBlank c) :
    Padded s (s ++ padding) := by
  induction s with
  | nil => exact .blanks h
  | cons c s ih => exact .cons c ih

theorem exists_append (h : Padded s s') : ∃ padding, (∀ c ∈ padding, isBlank c) ∧
    s' = s ++ padding := by
  induction h with
  | blanks h => exact ⟨_, h, rfl⟩
  | cons c _ ih =>
      obtain ⟨padding, hpadding, rfl⟩ := ih
      exact ⟨padding, hpadding, rfl⟩

/-! ## Cutting -/

theorem drop (h : Padded s s') (n : ℕ) : Padded (s.drop n) (s'.drop n) := by
  induction h generalizing n with
  | blanks h =>
      rw [List.drop_nil]
      exact .blanks fun c hc => h c (List.mem_of_mem_drop hc)
  | cons c hs ih =>
      cases n with
      | zero => exact .cons c hs
      | succ n => exact ih n

theorem dropWhile (h : Padded s s') (p : Char → Bool) :
    Padded (s.dropWhile p) (s'.dropWhile p) := by
  induction h with
  | blanks h => exact .blanks fun c hc => h c (List.dropWhile_subset p hc)
  | cons c hs ih =>
      rw [List.dropWhile_cons, List.dropWhile_cons]
      split
      · exact ih
      · exact .cons c hs

theorem takeWhile_eq {p : Char → Bool} (hp : ∀ c, isBlank c → p c = false) (h : Padded s s') :
    s'.takeWhile p = s.takeWhile p := by
  induction h with
  | @blanks padding h =>
      cases padding with
      | nil => rfl
      | cons c padding => exact List.takeWhile_cons_of_neg (by simp [hp c (h c List.mem_cons_self)])
  | cons c _ ih => rw [List.takeWhile_cons, List.takeWhile_cons, ih]

theorem all_eq {p : Char → Bool} (hp : ∀ c, isBlank c → p c) (h : Padded s s') :
    s'.all p = s.all p := by
  induction h with
  | blanks h => exact List.all_eq_true.mpr fun c hc => hp c (h c hc)
  | cons c _ ih => exact congrArg (p c && ·) ih

theorem skipBlanks (h : Padded s s') : Padded (skipBlanks s) (skipBlanks s') :=
  h.dropWhile isBlank

/-- What is left behind the blanks begins with the same character. -/
theorem skipBlanks_cases (h : Padded s s') :
    Text.skipBlanks s = [] ∧ Text.skipBlanks s' = [] ∨
      ∃ c t t', Text.skipBlanks s = c :: t ∧ Text.skipBlanks s' = c :: t' ∧ Padded t t' := by
  induction h with
  | blanks h => exact .inl ⟨rfl, List.dropWhile_eq_nil_iff.mpr h⟩
  | @cons c s s' hs ih =>
      unfold Text.skipBlanks at ih ⊢
      rw [List.dropWhile_cons, List.dropWhile_cons]
      split
      · exact ih
      · exact .inr ⟨c, s, s', rfl, rfl, hs⟩

theorem trimStart (h : Padded s s') : Padded (trimStart s) (trimStart s') :=
  h.dropWhile isWhitespace

theorem dropPrefix? {front : Text} (hfront : ∀ c ∈ front, isBlank c = false)
    (h : Padded s s') : Option.Rel Padded (dropPrefix? front s) (dropPrefix? front s') := by
  induction front generalizing s s' with
  | nil => exact .some h
  | cons d front ih =>
      rw [List.forall_mem_cons] at hfront
      cases h with
      | blanks hpadding =>
          cases s' with
          | nil => exact .none
          | cons c padding =>
              have hc : isBlank c := hpadding c List.mem_cons_self
              have hne : d ≠ c := by
                rintro rfl
                rw [hfront.1] at hc
                cases hc
              rw [Text.dropPrefix?, Text.dropPrefix?, if_neg hne]
              exact .none
      | cons c hs =>
          rw [Text.dropPrefix?, Text.dropPrefix?]
          split
          · exact ih hfront.2 hs
          · exact .none

/-- The padding of a text belongs to the last piece of it. -/
theorem splitOn {separator : Char} (hseparator : isBlank separator = false) (h : Padded s s') :
    List.Forall₂ Padded (s.splitOn separator) (s'.splitOn separator) := by
  induction h with
  | @blanks padding h =>
      have hnot : separator ∉ padding := fun hmem => by simpa [hseparator] using h separator hmem
      rw [List.splitOn_eq_singleton hnot]
      exact .cons (.blanks h) .nil
  | @cons c s s' hs ih =>
      rw [List.splitOn_cons_eq_if_modifyHead, List.splitOn_cons_eq_if_modifyHead]
      split
      · exact .cons (refl []) ih
      · generalize s.splitOn separator = pieces at ih ⊢
        generalize s'.splitOn separator = pieces' at ih ⊢
        cases ih with
        | nil => exact .nil
        | cons hfirst hothers => exact .cons (.cons c hfirst) hothers

/-! ## Trimming -/

theorem trimEnd_eq (h : Padded s s') : trimEnd s' = trimEnd s := by
  obtain ⟨padding, hpadding, rfl⟩ := h.exists_append
  apply trimEnd_append_of_isBlankLine
  exact List.all_eq_true.mpr fun c hc => isWhitespace_of_isBlank (hpadding c hc)

theorem trim_eq (h : Padded s s') : trim s' = trim s :=
  h.trimStart.trimEnd_eq

theorem isBlankLine_eq (h : Padded s s') : isBlankLine s' = isBlankLine s :=
  h.all_eq fun _ hc => isWhitespace_of_isBlank hc

theorem indent_eq (h : Padded s s') (hs : isBlankLine s = false) : indent s' = indent s := by
  induction h with
  | blanks _ => cases hs
  | @cons c s _ _ ih =>
      unfold indent at ih ⊢
      rw [List.takeWhile_cons, List.takeWhile_cons]
      cases hc : isBlank c with
      | false => rfl
      | true =>
          have hblank : isBlankLine s = false := by
            simpa [isBlankLine, isWhitespace_of_isBlank hc] using hs
          exact congrArg (· + 1) (ih hblank)

end Padded

/-! ## Padded lines -/

section

variable {ls ls' : List Text}

theorem splitOn_join_padded (h : List.Forall₂ Padded ls ls') :
    List.Forall₂ Padded ((join ['\n'] ls).splitOn '\n') ((join ['\n'] ls').splitOn '\n') := by
  induction h with
  | nil => exact Padded.splitOn rfl (Padded.refl [])
  | cons hline hrest ih =>
      cases hrest with
      | nil =>
          rw [join_singleton, join_singleton]
          exact hline.splitOn rfl
      | cons _ _ =>
          rw [join_cons_cons, join_cons_cons, List.singleton_append, List.singleton_append,
            List.splitOn_append_cons_self, List.splitOn_append_cons_self]
          exact List.rel_append (hline.splitOn rfl) ih

theorem dropWhile_isBlankLine_padded (h : List.Forall₂ Padded ls ls') :
    List.Forall₂ Padded (ls.dropWhile isBlankLine) (ls'.dropWhile isBlankLine) := by
  induction h with
  | nil => exact .nil
  | cons hline hrest ih =>
      rw [List.dropWhile_cons, List.dropWhile_cons, hline.isBlankLine_eq]
      split
      · exact ih
      · exact .cons hline hrest

theorem commonIndent_padded (h : List.Forall₂ Padded ls ls') :
    commonIndent ls' = commonIndent ls := by
  have hindents : (ls'.filter (!isBlankLine ·)).map indent =
      (ls.filter (!isBlankLine ·)).map indent := by
    induction h with
    | nil => rfl
    | @cons line line' _ _ hline _ ih =>
        rw [List.filter_cons, List.filter_cons, hline.isBlankLine_eq]
        cases hblank : isBlankLine line with
        | true => exact ih
        | false => exact congrArg₂ List.cons (hline.indent_eq hblank) ih
  rw [commonIndent, hindents, commonIndent]

theorem map_trimEnd_padded (h : List.Forall₂ Padded ls ls') :
    ls'.map trimEnd = ls.map trimEnd := by
  induction h with
  | nil => rfl
  | cons hline _ ih => exact congrArg₂ List.cons hline.trimEnd_eq ih

theorem unindent_join_padded (h : List.Forall₂ Padded ls ls') :
    unindent (join ['\n'] ls') = unindent (join ['\n'] ls) := by
  have hlines := dropWhile_isBlankLine_padded (splitOn_join_padded h)
  have hcut : ∀ n, List.Forall₂ Padded
      ((((join ['\n'] ls).splitOn '\n').dropWhile isBlankLine).map (·.drop n))
      ((((join ['\n'] ls').splitOn '\n').dropWhile isBlankLine).map (·.drop n)) := by
    intro n
    rw [List.forall₂_map_left_iff, List.forall₂_map_right_iff]
    exact hlines.imp fun _ _ hline => hline.drop n
  have htrimmed := fun n => map_trimEnd_padded (hcut n)
  simp only [List.map_map, Function.comp_def] at htrimmed
  simp only [unindent, commonIndent_padded hlines, htrimmed]

end

end Text
end ApiManual
