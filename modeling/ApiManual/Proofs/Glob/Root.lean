import ApiManual.Glob.Walk
import ApiManual.Proofs.Glob.Literal
import ApiManual.Proofs.Path.Components
import ApiManual.Proofs.Result

/-!
# The pattern of a root

An escaped path is read as one pattern for each of its pieces, and each of them stands for
itself, whatever special characters the path holds.
-/

namespace ApiManual
namespace Glob

open ApiManual.Path

/-! ## Merging -/

theorem mergeAnyDepth_ofName (name : Text) (ps : List Pattern) :
    mergeAnyDepth (.ofName name :: ps) = .ofName name :: mergeAnyDepth ps := by
  cases ps <;> rfl

theorem mergeAnyDepth_names (names : List Text) (ps : List Pattern) :
    mergeAnyDepth (names.map .ofName ++ ps) = names.map .ofName ++ mergeAnyDepth ps := by
  induction names with
  | nil => rfl
  | cons name names ih =>
      rw [List.map_cons, List.cons_append, mergeAnyDepth_ofName, ih, List.cons_append]

theorem mem_of_mem_mergeAnyDepth {p : Pattern} {ps : List Pattern} (h : p ∈ mergeAnyDepth ps) :
    p ∈ ps := by
  fun_induction mergeAnyDepth ps with
  | case1 rest ih => exact List.mem_cons_of_mem _ (ih h)
  | case2 q rest _ ih =>
      rcases List.mem_cons.mp h with rfl | hmem
      · exact List.mem_cons_self
      · exact List.mem_cons_of_mem _ (ih hmem)
  | case3 => exact h

/-! ## The pattern of a root -/

theorem pieces_slash (front behind : Text) :
    pieces (front ++ '/' :: behind) = front.splitOn '/' ++ pieces behind := by
  have hne := List.splitOn_ne_nil '/' behind
  unfold pieces
  rw [splitOn_slash]
  simp only [List.getLast?_append_of_ne_nil _ hne, List.dropLast_append_of_ne_nil hne]
  split <;> rfl

theorem escape_join (parts : List Text) :
    escape (Text.join ['/'] parts) = Text.join ['/'] (parts.map escape) := by
  induction parts with
  | nil => rfl
  | cons part parts ih =>
      cases parts with
      | nil => rw [List.map_cons, List.map_nil, Text.join_singleton, Text.join_singleton]
      | cons next parts =>
          have hslash : escape ['/'] = ['/'] := rfl
          rw [List.map_cons] at ih
          rw [Text.join_cons_cons, escape_append, escape_append, hslash, ih, List.map_cons,
            List.map_cons, Text.join_cons_cons]

theorem noSlash_escape {name : Text} (h : '/' ∉ name) : '/' ∉ escape name := by
  intro hmem
  obtain ⟨c, hc, hin⟩ := List.mem_flatMap.mp hmem
  split at hin
  · simp only [List.mem_cons, List.not_mem_nil, or_false] at hin
    rcases hin with heq | rfl | heq
    · cases heq
    · exact h hc
    · cases heq
  · rw [List.mem_singleton] at hin
    exact h (hin ▸ hc)

theorem splitOn_escape (s : Text) : (escape s).splitOn '/' = (s.splitOn '/').map escape := by
  have hjoin := escape_join (s.splitOn '/')
  rw [Text.join_splitOn] at hjoin
  rw [hjoin]
  apply List.splitOn_intercalate
  · intro part hpart
    obtain ⟨name, hname, rfl⟩ := List.mem_map.mp hpart
    exact noSlash_escape (noSlash_of_mem_splitOn hname)
  · simp [List.splitOn_ne_nil]

/-- The names a walk follows to come to a root. -/
def rootNames (root : Text) : List Text :=
  (if isAbsolute root then root.drop 1 else root).splitOn '/'

theorem mapM_ofText?_escape (names : List Text) :
    (names.map escape).mapM Pattern.ofText? = some (names.map .ofName) := by
  rw [mapM_eq_some_iff, List.forall₂_map_left_iff, List.forall₂_map_right_iff, List.forall₂_same]
  exact fun name _ => ofText?_escape name

theorem isAbsolute_escape_append {root : Text} (hroot : root ≠ []) (s : Text) :
    isAbsolute (escape root ++ s) = isAbsolute root := by
  obtain ⟨c, rest, rfl⟩ := List.exists_cons_of_ne_nil hroot
  rw [escape_cons]
  by_cases hc : isSpecialChar c
  · have hne : c ≠ '/' := by
      rintro rfl
      cases hc
    simp [isAbsolute, hc, hne]
  · simp [isAbsolute, hc]

theorem pieces_below_root {root : Text} (hroot : root ≠ []) (ext : Text) :
    pieces (if isAbsolute root then (escape root ++ "/**/*.".toList ++ ext).drop 1
        else escape root ++ "/**/*.".toList ++ ext) =
      (rootNames root).map escape ++ ['*', '*'] :: pieces ("*.".toList ++ ext) := by
  have hcut : (if isAbsolute root then (escape root ++ "/**/*.".toList ++ ext).drop 1
        else escape root ++ "/**/*.".toList ++ ext) =
      escape (if isAbsolute root then root.drop 1 else root) ++
        '/' :: (['*', '*'] ++ '/' :: ("*.".toList ++ ext)) := by
    rw [List.append_assoc]
    by_cases habsolute : isAbsolute root
    · rw [if_pos habsolute, if_pos habsolute]
      obtain ⟨c, rest, rfl⟩ := List.exists_cons_of_ne_nil hroot
      have hc : c = '/' := by simpa [isAbsolute] using habsolute
      subst hc
      rfl
    · rw [if_neg habsolute, if_neg habsolute]
      rfl
  rw [hcut, pieces_slash, splitOn_escape, pieces_slash]
  rfl

theorem PathPattern.ofText?_eq {s : Text} (h : s.length ≠ 1) :
    PathPattern.ofText? s =
      ((pieces (if isAbsolute s then s.drop 1 else s)).mapM Pattern.ofText?).map fun names => {
        absolute := isAbsolute s
        names
        directoriesOnly := s.getLast? = some '/' } := by
  have hmore : (isAbsolute s && decide (s.length = 1)) = false := by
    rw [decide_eq_false h, Bool.and_false]
  simp only [PathPattern.ofText?, hmore, Bool.false_eq_true, if_false]
  cases (pieces (if isAbsolute s then s.drop 1 else s)).mapM Pattern.ofText? <;> rfl

theorem getLast?_below_root (root ext : Text) :
    (escape root ++ "/**/*.".toList ++ ext).getLast? = ext.getLast?.or (some '.') := by
  have hdot : (escape root ++ "/**/*.".toList).getLast? = some '.' :=
    List.getLast?_append_of_ne_nil _ (by decide)
  rw [List.getLast?_append, hdot]

/-- The pattern of what is at any depth below a root. -/
theorem ofText?_below_root {root : Text} (hroot : root ≠ []) (ext : Text) :
    PathPattern.ofText? (escape root ++ "/**/*.".toList ++ ext) =
      ((pieces ("*.".toList ++ ext)).mapM Pattern.ofText?).map fun rest => {
        absolute := isAbsolute root
        names := (rootNames root).map .ofName ++ .anyDepth :: rest
        directoriesOnly := ext.getLast? = some '/' } := by
  have habsolute : isAbsolute (escape root ++ "/**/*.".toList ++ ext) = isAbsolute root := by
    rw [List.append_assoc]
    exact isAbsolute_escape_append hroot _
  have hlong : (escape root ++ "/**/*.".toList ++ ext).length ≠ 1 := by
    have hlength : "/**/*.".toList.length = 6 := rfl
    rw [List.length_append, List.length_append, hlength]
    omega
  have hlast : decide (ext.getLast?.or (some '.') = some '/') =
      decide (ext.getLast? = some '/') := by
    cases ext.getLast? <;> rfl
  rw [PathPattern.ofText?_eq hlong, habsolute, pieces_below_root hroot, getLast?_below_root, hlast,
    List.mapM_append, mapM_ofText?_escape, List.mapM_cons]
  cases (pieces ("*.".toList ++ ext)).mapM Pattern.ofText? <;> rfl

end Glob
end ApiManual
