import ApiManual.Proofs.TypeExpr.Continuation

/-!
# Balanced texts

A balanced text closes every bracket it opens and no other one.  Looking for the closing
bracket of a group, or for a separator at the top level, passes over it.
-/

namespace ApiManual
namespace TypeExpr

open Text

/-- The number of open brackets behind a text, unless the text closes more brackets than
are open or has a `separator` at the top level. -/
def depthBehind (separator : Option Char) : ℕ → Text → Option ℕ
  | depth, [] => some depth
  | depth, c :: s =>
    if isOpening c then depthBehind separator (depth + 1) s
    else if isClosing c then
      if depth = 0 then none else depthBehind separator (depth - 1) s
    else if some c = separator && depth = 0 then none
    else depthBehind separator depth s

def Balanced (separator : Option Char) (s : Text) : Prop :=
  depthBehind separator 0 s = some 0

theorem depthBehind_append (separator : Option Char) (depth : ℕ) (s t : Text) :
    depthBehind separator depth (s ++ t) =
      (depthBehind separator depth s).bind fun d => depthBehind separator d t := by
  induction s generalizing depth with
  | nil => rfl
  | cons c s ih =>
      rw [List.cons_append, depthBehind, depthBehind]
      split
      · exact ih _
      · split
        · split
          · rfl
          · exact ih _
        · split
          · rfl
          · exact ih _

theorem depthBehind_none {separator : Option Char} {depth d : ℕ} {s : Text}
    (h : depthBehind separator depth s = some d) : depthBehind none depth s = some d := by
  induction s generalizing depth with
  | nil => exact h
  | cons c s ih =>
      rw [depthBehind] at h ⊢
      by_cases hopen : isOpening c
      · rw [if_pos hopen] at h ⊢
        exact ih h
      · rw [if_neg hopen] at h ⊢
        by_cases hclose : isClosing c
        · rw [if_pos hclose] at h ⊢
          cases depth with
          | zero => cases h
          | succ depth => exact ih h
        · rw [if_neg hclose] at h ⊢
          rw [if_neg (by simp)]
          split at h
          · cases h
          · exact ih h

/-- Inside a group separators do not count. -/
theorem depthBehind_succ (separator : Option Char) {depth d : ℕ} {s : Text}
    (h : depthBehind none depth s = some d) :
    depthBehind separator (depth + 1) s = some (d + 1) := by
  induction s generalizing depth with
  | nil =>
      cases h
      rfl
  | cons c s ih =>
      rw [depthBehind] at h ⊢
      by_cases hopen : isOpening c
      · rw [if_pos hopen] at h ⊢
        exact ih h
      · rw [if_neg hopen] at h ⊢
        by_cases hclose : isClosing c
        · rw [if_pos hclose] at h ⊢
          cases depth with
          | zero => cases h
          | succ depth => exact ih h
        · rw [if_neg hclose, if_neg (by simp)] at h
          rw [if_neg hclose, if_neg (by simp)]
          exact ih h

/-- A text is balanced up to the first place where it is not. -/
theorem depthBehind_cases (separator : Option Char) (depth : ℕ) (s : Text) :
    (∃ d, depthBehind separator depth s = some d) ∨
      ∃ front c back, s = front ++ c :: back ∧ depthBehind separator depth front = some 0 ∧
        isOpening c = false ∧ (isClosing c ∨ some c = separator) := by
  induction s generalizing depth with
  | nil => exact .inl ⟨depth, rfl⟩
  | cons a s ih =>
      -- what the rest does from its own depth, with `a` in front
      have hrest : ∀ d, (∀ t, depthBehind separator depth (a :: t) = depthBehind separator d t) →
          (∃ d, depthBehind separator depth (a :: s) = some d) ∨
            ∃ front c back, a :: s = front ++ c :: back ∧
              depthBehind separator depth front = some 0 ∧
              isOpening c = false ∧ (isClosing c ∨ some c = separator) := by
        intro d hd
        rcases ih d with ⟨e, he⟩ | ⟨front, c, back, rfl, hfront, hc⟩
        · exact .inl ⟨e, (hd s).trans he⟩
        · exact .inr ⟨a :: front, c, back, rfl, (hd front).trans hfront, hc⟩
      by_cases hopen : isOpening a
      · exact hrest (depth + 1) fun t => by rw [depthBehind, if_pos hopen]
      · have hopen' : isOpening a = false := by simpa using hopen
        by_cases hclose : isClosing a
        · by_cases hdepth : depth = 0
          · exact .inr ⟨[], a, s, rfl, by rw [hdepth]; rfl, hopen', .inl hclose⟩
          · exact hrest (depth - 1) fun t => by
              rw [depthBehind, if_neg hopen, if_pos hclose, if_neg hdepth]
        · by_cases hhit : some a = separator && depth = 0
          · simp only [Bool.and_eq_true, decide_eq_true_eq] at hhit
            exact .inr ⟨[], a, s, rfl, by rw [hhit.2]; rfl, hopen', .inr hhit.1⟩
          · exact hrest depth fun t => by
              rw [depthBehind, if_neg hopen, if_neg hclose, if_neg hhit]

theorem Balanced.weaken {separator : Option Char} {s : Text} (h : Balanced separator s) :
    Balanced none s :=
  depthBehind_none h

theorem Balanced.group {s : Text} (h : Balanced none s) (separator : Option Char) :
    Balanced separator ('(' :: (s ++ [')'])) := by
  have hinside : depthBehind separator 1 s = some 1 := depthBehind_succ separator h
  rw [Balanced, depthBehind, if_pos rfl, depthBehind_append, hinside]
  rfl

theorem balanced_nil (separator : Option Char) : Balanced separator [] := rfl

theorem Balanced.append {separator : Option Char} {s t : Text} (hs : Balanced separator s)
    (ht : Balanced separator t) : Balanced separator (s ++ t) := by
  rw [Balanced, depthBehind_append, hs]
  exact ht

def Neutral (separator : Option Char) (c : Char) : Prop :=
  isOpening c = false ∧ isClosing c = false ∧ some c ≠ separator

theorem balanced_of_forall {separator : Option Char} {s : Text}
    (h : ∀ c ∈ s, Neutral separator c) : Balanced separator s := by
  induction s with
  | nil => rfl
  | cons c s ih =>
      rw [List.forall_mem_cons] at h
      obtain ⟨⟨hopen, hclose, hne⟩, hrest⟩ := h
      rw [Balanced, depthBehind]
      simp only [hopen, hclose, hne, decide_false, Bool.false_and, Bool.false_eq_true, if_false]
      exact ih hrest

theorem ne_of_class {p : Char → Bool} {c d : Char} (hc : p c) (hd : p d = false) : c ≠ d := by
  rintro rfl
  simp [hc] at hd

/-- A character of a class without brackets and commas is neutral. -/
theorem neutral_of_class {p : Char → Bool} {c : Char} (hc : p c)
    (hp : ['(', '<', '\x7b', '[', ')', '>', '\x7d', ']', ','].any p = false) :
    Neutral (some ',') c := by
  have hne : ∀ d ∈ ['(', '<', '\x7b', '[', ')', '>', '\x7d', ']', ','], c ≠ d :=
    fun d hd => ne_of_class hc (by simpa using List.any_eq_false.mp hp d hd)
  refine ⟨?_, ?_, ?_⟩
  · simp [isOpening, hne]
  · simp [isClosing, hne]
  · simp [hne]

/-! ## Passing over a balanced text -/

theorem depthAfter_opening {depth : ℕ} {c : Char} (h : isOpening c) :
    depthAfter depth c = depth + 1 := by
  simp [depthAfter, h]

theorem depthAfter_closing {depth : ℕ} {c : Char} (hopen : ¬ isOpening c) (hclose : isClosing c) :
    depthAfter depth c = depth - 1 := by
  simp [depthAfter, hopen, hclose]

theorem depthAfter_other {depth : ℕ} {c : Char} (hopen : ¬ isOpening c)
    (hclose : ¬ isClosing c) : depthAfter depth c = depth := by
  simp [depthAfter, hopen, hclose]

/-- A text that does not close the groups around it is passed over. -/
theorem cutAtClose_pass {separator : Option Char} {depth d : ℕ} {s : Text}
    (h : depthBehind separator depth s = some d) (t : Text) :
    cutAtClose (depth + 1) (s ++ t) =
      (cutAtClose (d + 1) t).map fun (inside, behind) => (s ++ inside, behind) := by
  induction s generalizing depth with
  | nil =>
      cases h
      simp
  | cons c s ih =>
      rw [depthBehind] at h
      rw [List.cons_append, cutAtClose]
      by_cases hopen : isOpening c
      · rw [if_pos hopen] at h
        rw [depthAfter_opening hopen, if_neg (by simp), ih h, Option.map_map]
        rfl
      · rw [if_neg hopen] at h
        by_cases hclose : isClosing c
        · rw [if_pos hclose] at h
          cases depth with
          | zero => cases h
          | succ depth =>
              have hinner : depthBehind separator depth s = some d := h
              rw [depthAfter_closing hopen hclose, Nat.add_sub_cancel, if_neg (by simp),
                ih hinner, Option.map_map]
              rfl
        · rw [if_neg hclose] at h
          split at h
          · cases h
          · rw [depthAfter_other hopen hclose, if_neg (by simp), ih h, Option.map_map]
            rfl

theorem cutAtClose_group {s : Text} (h : Balanced none s) (rest : Text) :
    cutAtClose 0 ('(' :: (s ++ ')' :: rest)) = some ('(' :: s, rest) := by
  have hclose : cutAtClose 1 (')' :: rest) = some ([], rest) := rfl
  rw [cutAtClose, depthAfter_opening rfl, if_neg (by simp), cutAtClose_pass h, hclose]
  simp

theorem afterGroup_group {s : Text} (h : Balanced none s) (rest : Text) :
    afterGroup ('(' :: (s ++ ')' :: rest)) = .ok rest := by
  rw [afterGroup, cutAtClose_group h]

theorem cutAtTop_pass {separator : Char} (hopening : isOpening separator = false)
    (hclosing : isClosing separator = false) {depth d : ℕ} {s : Text}
    (h : depthBehind (some separator) depth s = some d) (t : Text) :
    cutAtTop separator depth (s ++ t) =
      (cutAtTop separator d t).map fun (front, behind) => (s ++ front, behind) := by
  induction s generalizing depth with
  | nil =>
      cases h
      simp
  | cons c s ih =>
      rw [depthBehind] at h
      rw [List.cons_append, cutAtTop]
      by_cases hopen : isOpening c
      · have hne : c ≠ separator := by
          rintro rfl
          simp [hopen] at hopening
        rw [if_pos hopen] at h
        rw [depthAfter_opening hopen, if_neg (by simp [hne]), ih h, Option.map_map]
        rfl
      · rw [if_neg hopen] at h
        by_cases hclose : isClosing c
        · have hne : c ≠ separator := by
            rintro rfl
            simp [hclose] at hclosing
          rw [if_pos hclose] at h
          split at h
          · cases h
          · rw [depthAfter_closing hopen hclose, if_neg (by simp [hne]), ih h, Option.map_map]
            rfl
        · rw [if_neg hclose] at h
          split at h
          · cases h
          · rename_i htop
            simp only [Option.some.injEq] at htop
            rw [depthAfter_other hopen hclose, if_neg htop, ih h, Option.map_map]
            rfl

theorem cutAtTop_append {separator : Char} {depth : ℕ} {s front behind : Text}
    (h : cutAtTop separator depth s = some (front, behind)) (t : Text) :
    cutAtTop separator depth (s ++ t) = some (front, behind ++ t) := by
  induction s generalizing depth front with
  | nil => simp [cutAtTop] at h
  | cons c s ih =>
      rw [cutAtTop] at h
      rw [List.cons_append, cutAtTop]
      split at h
      · rename_i hhit
        rw [if_pos hhit]
        cases h
        rfl
      · rename_i hmiss
        rw [if_neg hmiss]
        obtain ⟨⟨inner, rest⟩, hcut, heq⟩ := Option.map_eq_some_iff.mp h
        cases heq
        rw [ih hcut]
        rfl

theorem cutAtTop_concat_none {separator c : Char} (hc : c ≠ separator) {depth : ℕ} {s : Text}
    (h : cutAtTop separator depth s = none) : cutAtTop separator depth (s ++ [c]) = none := by
  induction s generalizing depth with
  | nil => simp [cutAtTop, hc]
  | cons a s ih =>
      rw [cutAtTop] at h
      rw [List.cons_append, cutAtTop]
      split at h
      · cases h
      · rename_i hmiss
        rw [if_neg hmiss, ih (Option.map_eq_none_iff.mp h)]
        rfl

/-- What is cut off a text at a closing bracket closes the brackets that were open. -/
theorem depthBehind_of_cutAtClose (separator : Option Char) {depth : ℕ} {s inside behind : Text}
    (h : cutAtClose (depth + 1) s = some (inside, behind)) :
    ∃ c, s = inside ++ c :: behind ∧
      depthBehind separator (depth + 1) (inside ++ [c]) = some 0 := by
  induction s generalizing depth inside with
  | nil => simp [cutAtClose] at h
  | cons a s ih =>
      rw [cutAtClose] at h
      by_cases hopen : isOpening a
      · rw [depthAfter_opening hopen, if_neg (by simp)] at h
        obtain ⟨⟨inner, rest⟩, hcut, heq⟩ := Option.map_eq_some_iff.mp h
        cases heq
        obtain ⟨c, rfl, hdepth⟩ := ih hcut
        refine ⟨c, rfl, ?_⟩
        rw [List.cons_append, depthBehind, if_pos hopen]
        exact hdepth
      · by_cases hclose : isClosing a
        · rw [depthAfter_closing hopen hclose, Nat.add_sub_cancel] at h
          cases depth with
          | zero =>
              rw [if_pos (by simp [hclose])] at h
              cases h
              exact ⟨a, rfl, by simp [depthBehind, hopen, hclose]⟩
          | succ depth =>
              rw [if_neg (by simp)] at h
              obtain ⟨⟨inner, rest⟩, hcut, heq⟩ := Option.map_eq_some_iff.mp h
              cases heq
              obtain ⟨c, rfl, hdepth⟩ := ih hcut
              refine ⟨c, rfl, ?_⟩
              rw [List.cons_append, depthBehind, if_neg hopen, if_pos hclose, if_neg (by simp)]
              exact hdepth
        · rw [depthAfter_other hopen hclose, if_neg (by simp)] at h
          obtain ⟨⟨inner, rest⟩, hcut, heq⟩ := Option.map_eq_some_iff.mp h
          cases heq
          obtain ⟨c, rfl, hdepth⟩ := ih hcut
          refine ⟨c, rfl, ?_⟩
          rw [List.cons_append, depthBehind, if_neg hopen, if_neg hclose, if_neg (by simp)]
          exact hdepth

theorem balanced_of_afterGroup (separator : Option Char) {c : Char} {s rest : Text}
    (hopen : isOpening c) (h : afterGroup (c :: s) = .ok rest) :
    ∃ group, c :: s = group ++ rest ∧ Balanced separator group := by
  unfold afterGroup at h
  split at h
  · rename_i inside behind hcut
    cases h
    rw [cutAtClose, depthAfter_opening hopen, if_neg (by simp)] at hcut
    obtain ⟨⟨inner, rest⟩, hcut, heq⟩ := Option.map_eq_some_iff.mp hcut
    cases heq
    obtain ⟨close, rfl, hdepth⟩ := depthBehind_of_cutAtClose separator hcut
    refine ⟨c :: (inner ++ [close]), by simp, ?_⟩
    rw [Balanced, depthBehind, if_pos hopen]
    exact hdepth
  · cases h

/-! ## What the scanner reads -/

/-- No string literal stands in the text. -/
def Unquoted (s : Text) : Prop :=
  '"' ∉ s ∧ '\'' ∉ s

instance (s : Text) : Decidable (Unquoted s) :=
  inferInstanceAs (Decidable ('"' ∉ s ∧ '\'' ∉ s))

theorem Unquoted.of_suffix {s rest : Text} (h : Unquoted s) (hrest : rest <:+ s) :
    Unquoted rest :=
  ⟨fun hmem => h.1 (hrest.subset hmem), fun hmem => h.2 (hrest.subset hmem)⟩

theorem neutral_of_isNameChar {c : Char} (h : isNameChar c) : Neutral (some ',') c :=
  neutral_of_class h rfl

/-- `rest` is what a balanced text without top-level commas leaves of `s`, unless there is a
string literal in `s`. -/
def BalancedBefore (s rest : Text) : Prop :=
  rest <:+ s ∧ (Unquoted s → ∃ front, s = front ++ rest ∧ Balanced (some ',') front)

theorem BalancedBefore.of_append {s rest front : Text} (h : s = front ++ rest)
    (hfront : Balanced (some ',') front) : BalancedBefore s rest :=
  ⟨h ▸ List.suffix_append front rest, fun _ => ⟨front, h, hfront⟩⟩

theorem BalancedBefore.trans {s t u : Text} (hst : BalancedBefore s t) (htu : BalancedBefore t u) :
    BalancedBefore s u := by
  refine ⟨htu.1.trans hst.1, fun hs => ?_⟩
  obtain ⟨middle, ht, hmiddle⟩ := htu.2 (hs.of_suffix hst.1)
  obtain ⟨front, rfl, hfront⟩ := hst.2 hs
  exact ⟨front ++ middle, by simp [ht], hfront.append hmiddle⟩

theorem passing_balancedBefore : Passing BalancedBefore where
  refl := fun _ => .of_append rfl (balanced_nil _)
  trans := .trans
  plain := by
    intro c rest hc
    have hneutral : ∀ d ∈ [c], Neutral (some ',') d := by
      simpa using neutral_of_class hc rfl
    exact .of_append (List.singleton_append).symm (balanced_of_forall hneutral)
  brackets := fun _ => @BalancedBefore.of_append _ _ ['[', ']'] rfl rfl
  group := by
    intro c s rest hopen h
    obtain ⟨group, hgroup, hbalanced⟩ := balanced_of_afterGroup (some ',') hopen h
    exact .of_append hgroup hbalanced
  literal := by
    intro quote s rest hquote h
    refine ⟨passing_suffix.literal hquote h, fun hs => ?_⟩
    rcases hquote with rfl | rfl
    · exact absurd List.mem_cons_self hs.1
    · exact absurd List.mem_cons_self hs.2

/-- A whole type expression without string literals is balanced. -/
theorem balanced_of_afterUnion {s : Text} (hs : Unquoted s) (h : afterUnion s = .ok []) :
    Balanced (some ',') s := by
  obtain ⟨front, rfl, hfront⟩ := (passing_balancedBefore.afterUnion h).2 hs
  simpa using hfront

end TypeExpr
end ApiManual
