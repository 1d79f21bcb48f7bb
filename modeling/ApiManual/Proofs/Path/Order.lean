import ApiManual.Proofs.Path.Components
import Mathlib.Order.Monotone.Basic

/-!
# The order of paths

Paths are compared by their keys.  The keys of two paths agree only where their components
do, and what both begin with has no say in the comparison.
-/

namespace ApiManual
namespace Path

theorem precedes_iff {a b : Text} : precedes a b ↔ key a ≤ key b := by
  simp [precedes]

theorem precedes_trans (a b c : Text) (hab : precedes a b) (hbc : precedes b c) :
    precedes a c := by
  rw [precedes_iff] at *
  exact hab.trans hbc

theorem precedes_total (a b : Text) : precedes a b || precedes b a := by
  rw [Bool.or_eq_true, precedes_iff, precedes_iff]
  exact le_total _ _

theorem pairwise_mergeSort_precedes (paths : List Text) :
    (paths.mergeSort precedes).Pairwise fun a b => key a ≤ key b :=
  (List.pairwise_mergeSort precedes_trans precedes_total paths).imp precedes_iff.mp

theorem Component.key_injective : Function.Injective Component.key := by
  intro a b h
  cases a <;> cases b <;> simp [Component.key] at h ⊢
  exact List.map_injective_iff.mpr (fun _ _ => Char.toNat_inj.mp) h

theorem key_eq_key_iff {a b : Text} : key a = key b ↔ components a = components b :=
  (List.map_injective_iff.mpr Component.key_injective).eq_iff

/-- What both sides begin with does not decide a comparison. -/
theorem append_lt_append_iff {k a b : List (List Nat)} : k ++ a < k ++ b ↔ a < b := by
  have hmono : StrictMono (k ++ ·) := fun _ _ h => List.append_left_lt h
  exact hmono.lt_iff_lt

end Path
end ApiManual
