import ApiManual.Proofs.TypeExpr.Balance
import Mathlib.Data.List.Basic

/-!
# The grammar of type expressions

The grammar relates a text to what stands behind an expression at its front.  It leaves
open where an expression ends and to which of its parts a suffix belongs.  Groups are
told by the number of open brackets alone, and this is how the scanner finds their ends.
-/

namespace ApiManual
namespace TypeExpr

open Text

/-- The number of opening brackets less that of closing ones, of all kinds together. -/
def openBrackets (s : Text) : ℤ :=
  s.countP isOpening - s.countP isClosing

/-- A text from an opening bracket to the first character behind which no bracket is
open. -/
structure Group (opening : Char) (s : Text) : Prop where
  head : s.head? = some opening
  closed : openBrackets s = 0
  first : ∀ front, front <+: s → front ≠ [] → openBrackets front = 0 → front = s

def interior (group : Text) : Text :=
  group.tail.dropLast

def Blanks (s : Text) : Prop :=
  ∀ c ∈ s, isBlank c

/-- A run of name characters that `rest` does not go on with. -/
structure NameRun (run rest : Text) : Prop where
  nonempty : run ≠ []
  names : ∀ c ∈ run, isNameChar c
  maximal : ∀ c ∈ rest.head?, isNameChar c = false

/-- The word `fun`, at most one space, and the argument list in its brackets. -/
inductive CallHead : Text → Text → Text → Prop
  | mk {gap group rest : Text} (hgap : gap = [] ∨ gap = [' ']) (hgroup : Group '(' group) :
      CallHead ("fun".toList ++ (gap ++ (group ++ rest))) (interior group) rest

mutual

/-- A primary, and the text behind it. -/
inductive Primary : Text → Text → Prop
  | callable {s args returns rest : Text} (h : Callable s args returns rest) : Primary s rest
  | round {group rest : Text} (h : Group '(' group) : Primary (group ++ rest) rest
  | curly {group rest : Text} (h : Group '\x7b' group) : Primary (group ++ rest) rest
  | literal {quote : Char} {inside rest : Text} (hquote : quote = '"' ∨ quote = '\'')
      (hinside : quote ∉ inside) : Primary (quote :: (inside ++ quote :: rest)) rest
  | name {run rest : Text} (h : NameRun run rest) : Primary (run ++ rest) rest
  | applied {run group rest : Text} (h : NameRun run (group ++ rest)) (hgroup : Group '<' group) :
      Primary (run ++ (group ++ rest)) rest

/-- A callable, the text of its argument list, that of its list of returns, and the text
behind it. -/
inductive Callable : Text → Text → Text → Text → Prop
  | bare {s args rest : Text} (h : CallHead s args rest) : Callable s args [] rest
  | grouped {s args before after group rest : Text}
      (h : CallHead s args (before ++ ':' :: (after ++ (group ++ rest))))
      (hbefore : Blanks before) (hafter : Blanks after) (hgroup : Group '(' group) :
      Callable s args (interior group) rest
  | single {s args before after ret rest : Text}
      (h : CallHead s args (before ++ ':' :: (after ++ (ret ++ rest))))
      (hbefore : Blanks before) (hafter : Blanks after) (hret : Postfix (ret ++ rest) rest)
      (hopen : (ret ++ rest).head? ≠ some '(') : Callable s args ret rest

/-- A primary with any number of suffixes, and the text behind it. -/
inductive Postfix : Text → Text → Prop
  | primary {s rest : Text} (h : Primary s rest) : Postfix s rest
  | brackets {s rest : Text} (h : Postfix s ('[' :: ']' :: rest)) : Postfix s rest
  | mark {s rest : Text} (h : Postfix s ('?' :: rest)) : Postfix s rest

end

/-- Alternatives with `|` between them, and the text behind them. -/
inductive Union : Text → Text → Prop
  | single {s rest : Text} (h : Postfix s rest) : Union s rest
  | more {s before after next rest : Text} (h : Postfix s (before ++ '|' :: (after ++ next)))
      (hbefore : Blanks before) (hafter : Blanks after) (hnext : Union next rest) : Union s rest

/-! ## Groups -/

@[simp] theorem openBrackets_nil : openBrackets [] = 0 := rfl

theorem openBrackets_opening {c : Char} (h : isOpening c) (s : Text) :
    openBrackets (c :: s) = openBrackets s + 1 := by
  have hclose : ¬ isClosing c := by
    simp only [isOpening, Bool.or_eq_true, decide_eq_true_eq] at h
    rcases h with ((rfl | rfl) | rfl) | rfl <;> decide
  rw [openBrackets, openBrackets, List.countP_cons_of_pos h, List.countP_cons_of_neg hclose]
  omega

theorem openBrackets_closing {c : Char} (hopen : ¬ isOpening c) (h : isClosing c) (s : Text) :
    openBrackets (c :: s) = openBrackets s - 1 := by
  rw [openBrackets, openBrackets, List.countP_cons_of_neg hopen, List.countP_cons_of_pos h]
  omega

theorem openBrackets_other {c : Char} (hopen : ¬ isOpening c) (hclose : ¬ isClosing c)
    (s : Text) : openBrackets (c :: s) = openBrackets s := by
  rw [openBrackets, openBrackets, List.countP_cons_of_neg hopen, List.countP_cons_of_neg hclose]

theorem depthAfter_add_openBrackets {depth : ℕ} (hdepth : depth ≠ 0) (c : Char) (s : Text) :
    (depthAfter depth c : ℤ) + openBrackets s = depth + openBrackets (c :: s) := by
  by_cases hopen : isOpening c
  · rw [depthAfter_opening hopen, openBrackets_opening hopen]
    omega
  · by_cases hclose : isClosing c
    · rw [depthAfter_closing hopen hclose, openBrackets_closing hopen hclose]
      omega
    · rw [depthAfter_other hopen hclose, openBrackets_other hopen hclose]

theorem isClosing_of_depthAfter {depth : ℕ} {c : Char} (hdepth : depth ≠ 0)
    (h : depthAfter depth c = 0) : isClosing c := by
  by_contra hclose
  by_cases hopen : isOpening c
  · rw [depthAfter_opening hopen] at h
    omega
  · rw [depthAfter_other hopen hclose] at h
    exact hdepth h

/-- With `depth` brackets open in front of `s`, the character behind `inside` is the first
one behind which no bracket is open. -/
def ClosesBehind (depth : ℕ) (s inside behind : Text) : Prop :=
  ∃ close, s = inside ++ close :: behind ∧ depth + openBrackets (inside ++ [close]) = 0 ∧
    ∀ front, front <+: inside → depth + openBrackets front ≠ 0

theorem closesBehind_nil {depth : ℕ} {inside behind : Text} :
    ¬ ClosesBehind depth [] inside behind := by
  rintro ⟨close, heq, -⟩
  simp at heq

theorem closesBehind_last {depth : ℕ} {c : Char} (hdepth : depth ≠ 0)
    (hlast : depthAfter depth c = 0) {s inside behind : Text} :
    ClosesBehind depth (c :: s) inside behind ↔ inside = [] ∧ behind = s := by
  have hclosed : depth + openBrackets [c] = 0 := by
    rw [← depthAfter_add_openBrackets hdepth, hlast]
    rfl
  constructor
  · rintro ⟨close, heq, -, hfirst⟩
    cases inside with
    | nil =>
        cases heq
        exact ⟨rfl, rfl⟩
    | cons d inner =>
        cases heq
        exact absurd hclosed (hfirst [c] ⟨inner, rfl⟩)
  · rintro ⟨rfl, rfl⟩
    refine ⟨c, rfl, hclosed, ?_⟩
    intro front hfront
    rw [List.prefix_nil.mp hfront, openBrackets_nil]
    omega

theorem closesBehind_cons {depth : ℕ} {c : Char} (hdepth : depth ≠ 0)
    (hnext : depthAfter depth c ≠ 0) {s inside behind : Text} :
    ClosesBehind depth (c :: s) inside behind ↔
      ∃ inner, inside = c :: inner ∧ ClosesBehind (depthAfter depth c) s inner behind := by
  have hcount := depthAfter_add_openBrackets hdepth c
  constructor
  · rintro ⟨close, heq, hclosed, hfirst⟩
    cases inside with
    | nil =>
        cases heq
        rw [List.nil_append, ← hcount, openBrackets_nil] at hclosed
        omega
    | cons d inner =>
        cases heq
        rw [List.cons_append, ← hcount] at hclosed
        refine ⟨inner, rfl, close, rfl, hclosed, ?_⟩
        intro front hfront
        rw [hcount]
        exact hfirst (c :: front) ((List.prefix_cons_inj c).mpr hfront)
  · rintro ⟨inner, rfl, close, rfl, hclosed, hfirst⟩
    refine ⟨close, rfl, by rwa [List.cons_append, ← hcount], ?_⟩
    intro front hfront
    cases front with
    | nil =>
        rw [openBrackets_nil]
        omega
    | cons d front =>
        obtain ⟨rfl, hrest⟩ := List.cons_prefix_cons.mp hfront
        rw [← hcount]
        exact hfirst front hrest

theorem cutAtClose_cons_iff {depth : ℕ} {c : Char} (h : depthAfter depth c ≠ 0)
    {s inside behind : Text} :
    cutAtClose depth (c :: s) = some (inside, behind) ↔
      ∃ inner, inside = c :: inner ∧ cutAtClose (depthAfter depth c) s = some (inner, behind) := by
  rw [cutAtClose, if_neg (by simp [h]), Option.map_eq_some_iff]
  constructor
  · rintro ⟨⟨inner, rest⟩, hcut, heq⟩
    cases heq
    exact ⟨inner, rfl, hcut⟩
  · rintro ⟨inner, rfl, hcut⟩
    exact ⟨(inner, behind), hcut, rfl⟩

/-- The scanner cuts a text where the count of open brackets comes back to zero. -/
theorem cutAtClose_eq_some_iff {depth : ℕ} (hdepth : depth ≠ 0) {s inside behind : Text} :
    cutAtClose depth s = some (inside, behind) ↔ ClosesBehind depth s inside behind := by
  induction s generalizing depth inside with
  | nil => simp [cutAtClose, closesBehind_nil]
  | cons c s ih =>
      by_cases hlast : depthAfter depth c = 0
      · have hclose := isClosing_of_depthAfter hdepth hlast
        rw [closesBehind_last hdepth hlast, cutAtClose, if_pos (by simp [hclose, hlast])]
        simp [eq_comm]
      · rw [cutAtClose_cons_iff hlast, closesBehind_cons hdepth hlast]
        simp only [ih hlast]

theorem interior_cons_concat (opening : Char) (inner : Text) (close : Char) :
    interior (opening :: (inner ++ [close])) = inner := by
  simp [interior]

theorem exists_group_of_closesBehind {opening : Char} (hopen : isOpening opening)
    {s inner behind : Text} (h : ClosesBehind 1 s inner behind) :
    ∃ close, s = inner ++ close :: behind ∧ Group opening (opening :: (inner ++ [close])) := by
  obtain ⟨close, rfl, hclosed, hfirst⟩ := h
  push_cast at hclosed hfirst
  refine ⟨close, rfl, rfl, by rw [openBrackets_opening hopen]; omega, ?_⟩
  intro front hfront hne hzero
  cases front with
  | nil => exact absurd rfl hne
  | cons c front =>
      obtain ⟨rfl, hrest⟩ := List.cons_prefix_cons.mp hfront
      rw [openBrackets_opening hopen] at hzero
      rcases List.prefix_concat_iff.mp hrest with rfl | hinner
      · rfl
      · exact absurd (by omega) (hfirst front hinner)

theorem Group.closesBehind {opening : Char} {group : Text} (h : Group opening group)
    (hopen : isOpening opening) :
    ∃ inner close, group = opening :: (inner ++ [close]) ∧
      ∀ behind, ClosesBehind 1 (inner ++ close :: behind) inner behind := by
  obtain ⟨tail, rfl⟩ := List.head?_eq_some_iff.mp h.head
  have hclosed := h.closed
  rw [openBrackets_opening hopen] at hclosed
  obtain rfl | ⟨inner, close, rfl⟩ := List.eq_nil_or_concat' tail
  · cases hclosed
  refine ⟨inner, close, rfl, fun behind => ⟨close, rfl, by push_cast; omega, ?_⟩⟩
  intro front hfront hzero
  have hwhole := h.first (opening :: front)
    ((List.prefix_cons_inj opening).mpr (hfront.trans (List.prefix_append inner [close])))
    (by simp) (by rw [openBrackets_opening hopen]; push_cast at hzero; omega)
  have hlength := congrArg List.length hwhole
  have hle := hfront.length_le
  simp only [List.length_cons, List.length_append, List.length_nil] at hlength
  omega

theorem Group.cutAtClose_eq {opening : Char} {group : Text} (h : Group opening group)
    (hopen : isOpening opening) (rest : Text) :
    cutAtClose 0 (group ++ rest) = some (opening :: interior group, rest) := by
  obtain ⟨inner, close, rfl, hcloses⟩ := h.closesBehind hopen
  have hafter : depthAfter 0 opening = 1 := depthAfter_opening hopen
  rw [interior_cons_concat, List.cons_append, List.append_assoc]
  exact (cutAtClose_cons_iff (by omega)).mpr
    ⟨inner, rfl, hafter ▸ (cutAtClose_eq_some_iff Nat.one_ne_zero).mpr (hcloses rest)⟩

theorem exists_group_of_cutAtClose {opening : Char} (hopen : isOpening opening)
    {s inside behind : Text} (h : cutAtClose 0 (opening :: s) = some (inside, behind)) :
    ∃ group, opening :: s = group ++ behind ∧ Group opening group ∧
      inside = opening :: interior group := by
  have hafter : depthAfter 0 opening = 1 := depthAfter_opening hopen
  obtain ⟨inner, rfl, hcut⟩ := (cutAtClose_cons_iff (by omega)).mp h
  rw [hafter] at hcut
  obtain ⟨close, rfl, hgroup⟩ :=
    exists_group_of_closesBehind hopen ((cutAtClose_eq_some_iff Nat.one_ne_zero).mp hcut)
  exact ⟨_, by simp, hgroup, by rw [interior_cons_concat]⟩

theorem Group.afterGroup_eq {opening : Char} {group : Text} (h : Group opening group)
    (hopen : isOpening opening) (rest : Text) : afterGroup (group ++ rest) = .ok rest := by
  rw [afterGroup, h.cutAtClose_eq hopen]

theorem exists_group_of_afterGroup {opening : Char} (hopen : isOpening opening) {s rest : Text}
    (h : afterGroup (opening :: s) = .ok rest) :
    ∃ group, opening :: s = group ++ rest ∧ Group opening group := by
  unfold afterGroup at h
  split at h
  · rename_i inside behind hcut
    cases h
    obtain ⟨group, heq, hgroup, -⟩ := exists_group_of_cutAtClose hopen hcut
    exact ⟨group, heq, hgroup⟩
  · cases h

end TypeExpr
end ApiManual
