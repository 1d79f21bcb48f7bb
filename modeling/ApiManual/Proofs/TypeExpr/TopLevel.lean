import ApiManual.Proofs.TypeExpr.RoundTrip

/-!
# Separators at the top level

A list in a type expression is cut part by part, and the brackets of every part are counted
anew.  No bracket is open behind a cut, so the cuts are those that a single count from the
start of the text finds, whether the brackets in it are balanced or not.
-/

namespace ApiManual
namespace TypeExpr

open Text

/-! ## A single count -/

/-- The number of open brackets behind a text, with `depth` of them in front. -/
def openBehind (depth : ℕ) (s : Text) : ℕ :=
  s.foldl depthAfter depth

/-- Whether the separator stands at a place of the text where no bracket is open, `depth` of
them being open in front of the text. -/
def isTopAt (separator : Char) (depth : ℕ) (s : Text) (place : ℕ) : Bool :=
  s[place]? = some separator && openBehind depth (s.take place) = 0

/-- The places of the separators at the top level, found by a single count of the brackets. -/
def topPlaces (separator : Char) (depth : ℕ) (s : Text) : List ℕ :=
  (List.range s.length).filter (isTopAt separator depth s)

theorem openBehind_append (depth : ℕ) (s t : Text) :
    openBehind depth (s ++ t) = openBehind (openBehind depth s) t :=
  List.foldl_append

section Places

variable {separator : Char} {depth : ℕ} {s front behind : Text}

theorem isTopAt_cons_zero (c : Char) (s : Text) :
    isTopAt separator depth (c :: s) 0 ↔ c = separator ∧ depth = 0 := by
  simp only [isTopAt, Bool.and_eq_true, decide_eq_true_eq]
  simp [openBehind]

theorem isTopAt_cons_succ (c : Char) (s : Text) (place : ℕ) :
    isTopAt separator depth (c :: s) (place + 1) =
      isTopAt separator (depthAfter depth c) s place :=
  rfl

theorem isTopAt_append_left {place : ℕ} (h : place < front.length) (behind : Text) :
    isTopAt separator depth (front ++ behind) place = isTopAt separator depth front place := by
  rw [isTopAt, isTopAt, List.getElem?_append_left h, List.take_append_of_le_length h.le]

theorem isTopAt_append_right (place : ℕ) :
    isTopAt separator depth (front ++ behind) (front.length + place) =
      isTopAt separator (openBehind depth front) behind place := by
  rw [isTopAt, isTopAt, List.getElem?_append_right (Nat.le_add_right _ _),
    Nat.add_sub_cancel_left, List.take_length_add_append, openBehind_append]

theorem topPlaces_append (depth : ℕ) (front behind : Text) :
    topPlaces separator depth (front ++ behind) =
      topPlaces separator depth front ++
        (topPlaces separator (openBehind depth front) behind).map (front.length + ·) := by
  have hfront : ∀ place ∈ List.range front.length,
      isTopAt separator depth (front ++ behind) place = isTopAt separator depth front place :=
    fun _ hplace => isTopAt_append_left (List.mem_range.mp hplace) behind
  have hbehind : isTopAt separator depth (front ++ behind) ∘ (front.length + ·) =
      isTopAt separator (openBehind depth front) behind :=
    funext isTopAt_append_right
  rw [topPlaces, List.length_append, List.range_add, List.filter_append,
    List.filter_congr hfront, List.filter_map, hbehind]
  rfl

/-! ## The first cut -/

theorem cutAtTop_eq_none_iff :
    cutAtTop separator depth s = none ↔ ∀ place, isTopAt separator depth s place = false := by
  induction s generalizing depth with
  | nil => simp [cutAtTop, isTopAt]
  | cons c s ih =>
      rw [cutAtTop]
      split
      · rename_i hhit
        have hfirst : isTopAt separator depth (c :: s) 0 :=
          (isTopAt_cons_zero c s).mpr (by simpa using hhit)
        refine iff_of_false (by simp) fun h => ?_
        rw [h 0] at hfirst
        cases hfirst
      · rename_i hmiss
        have hfirst : isTopAt separator depth (c :: s) 0 = false :=
          Bool.eq_false_iff.mpr (mt (isTopAt_cons_zero c s).mp (by simpa using hmiss))
        rw [Option.map_eq_none_iff, ih]
        constructor
        · intro h place
          cases place with
          | zero => exact hfirst
          | succ place =>
              rw [isTopAt_cons_succ]
              exact h place
        · intro h place
          rw [← isTopAt_cons_succ]
          exact h (place + 1)

/-- No separator stands at the top level in front of the first cut, and no bracket is open. -/
theorem front_of_cutAtTop (h : cutAtTop separator depth s = some (front, behind)) :
    cutAtTop separator depth front = none ∧ openBehind depth front = 0 := by
  induction s generalizing depth front with
  | nil => cases h
  | cons c s ih =>
      rw [cutAtTop] at h
      split at h
      · rename_i hhit
        cases h
        simp only [Bool.and_eq_true, decide_eq_true_eq] at hhit
        exact ⟨rfl, hhit.2⟩
      · rename_i hmiss
        obtain ⟨⟨inner, rest⟩, hcut, heq⟩ := Option.map_eq_some_iff.mp h
        cases heq
        obtain ⟨hnone, hopen⟩ := ih hcut
        refine ⟨?_, hopen⟩
        rw [cutAtTop, if_neg hmiss, hnone]
        rfl

theorem topPlaces_of_none (h : cutAtTop separator depth s = none) :
    topPlaces separator depth s = [] := by
  refine List.filter_eq_nil_iff.mpr fun place _ => ?_
  simpa using cutAtTop_eq_none_iff.mp h place

/-- A single count goes on behind the first cut as a new one begins there. -/
theorem topPlaces_of_cut (hseparator : isOpening separator = false)
    (h : cutAtTop separator 0 s = some (front, behind)) :
    topPlaces separator 0 s =
      front.length :: (topPlaces separator 0 behind).map (front.length + 1 + ·) := by
  obtain ⟨hnone, hopen⟩ := front_of_cutAtTop h
  have hcut : topPlaces separator 0 [separator] = [0] := by
    simp [topPlaces, isTopAt_cons_zero]
  have hnew : openBehind 0 [separator] = 0 := by
    simp [openBehind, depthAfter, hseparator]
  calc
    topPlaces separator 0 s = topPlaces separator 0 (front ++ ([separator] ++ behind)) := by
      rw [append_of_cutAtTop h, List.singleton_append]
    _ = (0 :: (topPlaces separator 0 behind).map (1 + ·)).map (front.length + ·) := by
      rw [topPlaces_append, topPlaces_of_none hnone, hopen, topPlaces_append, hcut, hnew]
      rfl
    _ = front.length :: (topPlaces separator 0 behind).map (front.length + 1 + ·) := by
      simp [Function.comp_def, Nat.add_assoc]

end Places

/-! ## All cuts -/

/-- The places of the separators between parts that are joined. -/
def cutPlaces : List Text → List ℕ
  | [] => []
  | [_] => []
  | part :: next :: parts =>
    part.length :: (cutPlaces (next :: parts)).map (part.length + 1 + ·)

theorem cutPlaces_cons (part : Text) {parts : List Text} (h : parts ≠ []) :
    cutPlaces (part :: parts) = part.length :: (cutPlaces parts).map (part.length + 1 + ·) := by
  cases parts with
  | nil => exact absurd rfl h
  | cons next parts => rfl

theorem splitTop_ne_nil (separator : Char) (s : Text) : splitTop separator s ≠ [] := by
  cases hcut : cutAtTop separator 0 s with
  | none => simp [splitTop_of_none hcut]
  | some parts => simp [splitTop_of_cut hcut]

theorem join_splitTop (separator : Char) (s : Text) :
    join [separator] (splitTop separator s) = s := by
  fun_induction splitTop separator s with
  | case1 s front behind hcut ih =>
      rw [join_cons_of_ne_nil _ _ (splitTop_ne_nil separator behind), ih,
        append_of_cutAtTop hcut]
      rfl
  | case2 s hnone => exact join_singleton _ _

theorem cutAtTop_of_mem_splitTop {separator : Char} {s part : Text}
    (h : part ∈ splitTop separator s) : cutAtTop separator 0 part = none := by
  fun_induction splitTop separator s with
  | case1 s front behind hcut ih =>
      rcases List.mem_cons.mp h with rfl | hmem
      · exact (front_of_cutAtTop hcut).1
      · exact ih hmem
  | case2 s hnone =>
      rw [List.mem_singleton.mp h]
      exact hnone

theorem cutPlaces_splitTop {separator : Char} (hseparator : isOpening separator = false)
    (s : Text) : cutPlaces (splitTop separator s) = topPlaces separator 0 s := by
  fun_induction splitTop separator s with
  | case1 s front behind hcut ih =>
      rw [cutPlaces_cons front (splitTop_ne_nil separator behind), ih,
        topPlaces_of_cut hseparator hcut]
  | case2 s hnone => exact (topPlaces_of_none hnone).symm

/-- Nothing is lost between the parts of a list, no part can be cut further, and the cuts
are the commas outside all brackets, which are counted once from the start of the text. -/
theorem splitTop_cuts_at_top (s : Text) :
    join [','] (splitTop ',' s) = s ∧
      (∀ part ∈ splitTop ',' s, cutAtTop ',' 0 part = none) ∧
      cutPlaces (splitTop ',' s) =
        (List.range s.length).filter fun place =>
          s[place]? = some ',' && (s.take place).foldl depthAfter 0 = 0 :=
  ⟨join_splitTop ',' s, fun _ h => cutAtTop_of_mem_splitTop h, cutPlaces_splitTop rfl s⟩

/-- A stray bracket is passed over, and one that stays open holds its commas back. -/
example : splitTop ',' "a),b>(,c],d[,e".toList =
    ["a)".toList, "b>(,c]".toList, "d[,e".toList] := by
  decide +kernel

end TypeExpr
end ApiManual
