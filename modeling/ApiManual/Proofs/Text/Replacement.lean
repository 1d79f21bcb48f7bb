import ApiManual.Proofs.Text.Edges
import ApiManual.Text.Replace
import Mathlib.Data.List.Infix
import Mathlib.Tactic.Common

/-!
# Replacement and delimiters

A character that does not occur in the replaced text cuts every replacement in two:
no occurrence reaches across it.  Texts without an occurrence stay as they are, and so do
the ends of a trimmed text where only whitespace is replaced.
-/

namespace ApiManual
namespace Text

theorem prefix_append_cons_iff {old a b : Text} {c : Char} (hc : c ∉ old) :
    old <+: a ++ c :: b ↔ old <+: a := by
  induction old generalizing a with
  | nil => simp
  | cons o old ih =>
      rw [List.mem_cons, not_or] at hc
      cases a with
      | nil =>
          simp only [List.nil_append, List.cons_prefix_cons, List.prefix_nil, reduceCtorEq,
            iff_false]
          rintro ⟨rfl, -⟩
          exact hc.1 rfl
      | cons d a =>
          rw [List.cons_append, List.cons_prefix_cons, List.cons_prefix_cons, ih hc.2]

theorem replaceFrom_cons_of_miss {old new : Text} {c : Char} {s : Text}
    (h : ¬ old <+: c :: s) :
    replaceFrom old new 0 (c :: s) = c :: replaceFrom old new 0 s := by
  rw [← List.isPrefixOf_iff_prefix] at h
  rw [replaceFrom, if_neg h]

theorem replaceFrom_cons_of_hit {old new : Text} {c : Char} {s : Text}
    (h : old <+: c :: s) :
    replaceFrom old new 0 (c :: s) = new ++ replaceFrom old new (old.length - 1) s := by
  rw [← List.isPrefixOf_iff_prefix] at h
  rw [replaceFrom, if_pos h]

/-- The characters still to be skipped all stand in front of the delimiter. -/
theorem replaceFrom_append_cons {old : Text} (hold : old ≠ []) (new : Text) {c : Char}
    (hc : c ∉ old) (a b : Text) {skip : ℕ} (hskip : skip ≤ a.length) :
    replaceFrom old new skip (a ++ c :: b) =
      replaceFrom old new skip a ++ c :: replaceFrom old new 0 b := by
  induction a generalizing skip with
  | nil =>
      have hzero : skip = 0 := by simpa using hskip
      have hhit : ¬ old <+: c :: b := by
        intro h
        have hnil := (prefix_append_cons_iff (a := []) hc).mp h
        exact hold (List.prefix_nil.mp hnil)
      rw [hzero, List.nil_append, replaceFrom_cons_of_miss hhit, replaceFrom,
        List.nil_append]
  | cons d a ih =>
      cases skip with
      | succ skip =>
          rw [List.cons_append, replaceFrom, replaceFrom]
          exact ih (by simpa using hskip)
      | zero =>
          have hiff := prefix_append_cons_iff (a := d :: a) (b := b) hc
          rw [List.cons_append] at hiff ⊢
          by_cases hhit : old <+: d :: a
          · have hlen : old.length ≤ a.length + 1 := hhit.length_le
            rw [replaceFrom_cons_of_hit hhit,
              replaceFrom_cons_of_hit (hiff.mpr hhit), ih (by omega),
              List.append_assoc]
          · rw [replaceFrom_cons_of_miss hhit,
              replaceFrom_cons_of_miss (mt hiff.mp hhit), ih (Nat.zero_le _),
              List.cons_append]

theorem replace_append_cons {old : Text} (new : Text) {c : Char} (hc : c ∉ old)
    (a b : Text) :
    replace old new (a ++ c :: b) = replace old new a ++ c :: replace old new b := by
  unfold replace
  by_cases hold : old = []
  · simp [hold]
  · have hempty : ¬ old.isEmpty := by simpa using hold
    rw [if_neg hempty, if_neg hempty, if_neg hempty]
    exact replaceFrom_append_cons hold new hc a b (Nat.zero_le _)

theorem replaceFrom_eq_self {old : Text} (new : Text) {s : Text} (h : ¬ old <:+: s) :
    replaceFrom old new 0 s = s := by
  induction s with
  | nil => rfl
  | cons c s ih =>
      rw [List.infix_cons_iff, not_or] at h
      rw [replaceFrom_cons_of_miss h.1, ih h.2]

theorem replace_eq_self {old : Text} (new : Text) {s : Text} (h : ¬ old <:+: s) :
    replace old new s = s := by
  have hold : ¬ old.isEmpty := by
    intro hempty
    rw [List.isEmpty_iff.mp hempty] at h
    exact h (List.nil_infix)
  rw [replace, if_neg hold, replaceFrom_eq_self new h]

/-- What stands between two characters that the replaced text lacks stays, if the replaced
text does not occur in it. -/
theorem infix_replace {old w s : Text} (new : Text) {c d : Char} (hc : c ∉ old) (hd : d ∉ old)
    (hw : ¬ old <:+: w) (h : c :: (w ++ [d]) <:+: s) :
    c :: (w ++ [d]) <:+: replace old new s := by
  obtain ⟨front, back, rfl⟩ := h
  have hcut : front ++ c :: (w ++ [d]) ++ back = front ++ c :: (w ++ d :: back) := by simp
  rw [hcut, replace_append_cons new hc, replace_append_cons new hd, replace_eq_self new hw]
  exact ⟨replace old new front, replace old new back, by simp⟩

theorem replaceFrom_length (old new s : Text) :
    replaceFrom old new s.length s = [] := by
  induction s with
  | nil => rfl
  | cons c s ih => rw [List.length_cons, replaceFrom, ih]

theorem replace_self (s new : Text) : replace s new s = new := by
  cases s with
  | nil => simp [replace]
  | cons c s =>
      rw [replace, if_neg (by simp), replaceFrom_cons_of_hit List.prefix_rfl,
        List.length_cons, Nat.add_sub_cancel, replaceFrom_length, List.append_nil]

/-! ## Characters -/

theorem replace_char (c : Char) (new s : Text) :
    replace [c] new s = s.flatMap fun d => if d = c then new else [d] := by
  rw [replace, if_neg (by simp)]
  induction s with
  | nil => rfl
  | cons d s ih =>
      by_cases hd : d = c
      · rw [replaceFrom_cons_of_hit (by simp [hd]), List.flatMap_cons, if_pos hd, List.length_singleton,
          Nat.sub_self, ih]
      · have hmiss : ¬ [c] <+: d :: s := by simpa using Ne.symm hd
        rw [replaceFrom_cons_of_miss hmiss, List.flatMap_cons, if_neg hd, ih, List.singleton_append]

theorem mem_replaceFrom {old new s : Text} {skip : ℕ} {c : Char}
    (h : c ∈ replaceFrom old new skip s) : c ∈ new ∨ c ∈ s := by
  induction s generalizing skip with
  | nil => cases skip <;> cases h
  | cons d s ih =>
      cases skip with
      | succ skip => exact (ih h).imp_right (List.mem_cons_of_mem d)
      | zero =>
          rw [replaceFrom] at h
          split at h
          · rcases List.mem_append.mp h with hnew | hrest
            · exact .inl hnew
            · exact (ih hrest).imp_right (List.mem_cons_of_mem d)
          · rcases List.mem_cons.mp h with rfl | hrest
            · exact .inr List.mem_cons_self
            · exact (ih hrest).imp_right (List.mem_cons_of_mem d)

theorem replace_nil {old : Text} (hne : old ≠ []) (new : Text) : replace old new [] = [] := by
  rw [replace, if_neg (by simpa using hne), replaceFrom]

theorem mem_replace {old new s : Text} (hne : old ≠ []) {c : Char} (h : c ∈ replace old new s) :
    c ∈ new ∨ c ∈ s := by
  rw [replace, if_neg (by simpa using hne)] at h
  exact mem_replaceFrom h

/-! ## Trimmed texts -/

/-- The ends of a trimmed text stay where only whitespace is replaced. -/
theorem Trimmed.replace {old : Text} (hold : ∀ c ∈ old, isWhitespace c) (hne : old ≠ [])
    (new : Text) {s : Text} (hs : Trimmed s) : Trimmed (replace old new s) := by
  have hout : ∀ {c : Char}, isWhitespace c = false → c ∉ old := by
    intro c hc hmem
    simpa [hc] using hold c hmem
  have hnil : Text.replace old new [] = [] := replace_nil hne new
  cases s with
  | nil => rwa [hnil]
  | cons c s =>
    apply trimmed_of_edges
    · have hc := hs.head c rfl
      have hcut := replace_append_cons new (hout hc) [] s
      rw [List.nil_append, hnil, List.nil_append] at hcut
      rw [hcut]
      rintro _ ⟨⟩
      exact hc
    · obtain ⟨front, d, hd⟩ := (List.eq_nil_or_concat' (c :: s)).resolve_left (by simp)
      rw [hd] at hs ⊢
      have hlast := hs.last d List.getLast?_concat
      rw [replace_append_cons new (hout hlast), hnil, List.getLast?_concat]
      rintro _ ⟨⟩
      exact hlast

end Text
end ApiManual
