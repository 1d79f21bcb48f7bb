import ApiManual.Proofs.Text.Edges
import ApiManual.TypeExpr.Extent

/-!
# What the scanner passes over

A type expression is read piece by piece, and the pieces are of four kinds: single plain
characters, the suffix `[]`, groups in brackets, and string literals.  A relation between a
text and what is left of it holds for whole expressions if it holds for these pieces.
-/

namespace ApiManual
namespace TypeExpr

open Text

/-- A character of an expression that stands for itself. -/
def isPlain (c : Char) : Bool :=
  isNameChar c || isBlank c || c = '|' || c = ':' || c = '?'

/-- A relation between texts and what is left of them that the pieces of an expression keep. -/
structure Passing (R : Text → Text → Prop) : Prop where
  refl : ∀ s, R s s
  trans : ∀ {s t u}, R s t → R t u → R s u
  plain : ∀ {c} rest, isPlain c → R (c :: rest) rest
  brackets : ∀ rest, R ('[' :: ']' :: rest) rest
  group : ∀ {c s rest}, isOpening c → afterGroup (c :: s) = .ok rest → R (c :: s) rest
  literal : ∀ {quote s rest}, quote = '"' ∨ quote = '\'' → afterLiteral quote s = .ok rest →
    R (quote :: s) rest

theorem isPlain_of_isNameChar {c : Char} (h : isNameChar c) : isPlain c := by
  simp [isPlain, h]

theorem isPlain_of_isBlank {c : Char} (h : isBlank c) : isPlain c := by
  simp [isPlain, h]

theorem map_dropSuffixes_eq_ok {x : Except TypeError Text} {rest : Text} :
    x.map dropSuffixes = .ok rest ↔ ∃ behind, x = .ok behind ∧ dropSuffixes behind = rest := by
  cases x with
  | error e => simp [Except.map]
  | ok behind => simp [Except.map]

namespace Passing

variable {R : Text → Text → Prop}

theorem run (hR : Passing R) {front : Text} (h : ∀ c ∈ front, isPlain c) (rest : Text) :
    R (front ++ rest) rest := by
  induction front with
  | nil => exact hR.refl rest
  | cons c front ih =>
      rw [List.forall_mem_cons] at h
      exact hR.trans (hR.plain (front ++ rest) h.1) (ih h.2)

theorem dropWhile (hR : Passing R) {p : Char → Bool} (hp : ∀ c, p c → isPlain c) (s : Text) :
    R s (s.dropWhile p) := by
  have hfront : ∀ c ∈ s.takeWhile p, isPlain c := fun c hc => hp c (List.mem_takeWhile_imp hc)
  have hrun := hR.run hfront (s.dropWhile p)
  rw [List.takeWhile_append_dropWhile] at hrun
  exact hrun

theorem skipBlanks (hR : Passing R) (s : Text) : R s (skipBlanks s) :=
  hR.dropWhile (fun _ => isPlain_of_isBlank) s

theorem skipBlanks_cons (hR : Passing R) {s rest : Text} {c : Char}
    (h : Text.skipBlanks s = c :: rest) (hc : isPlain c) : R s (Text.skipBlanks rest) := by
  have hfront := hR.skipBlanks s
  rw [h] at hfront
  exact hR.trans hfront (hR.trans (hR.plain rest hc) (hR.skipBlanks rest))

theorem afterName (hR : Passing R) {s rest : Text} (h : afterName s = .ok rest) : R s rest := by
  have hname := hR.dropWhile (fun _ => isPlain_of_isNameChar) s
  unfold TypeExpr.afterName at h
  split at h
  · rename_i behind hdrop
    rw [hdrop] at hname
    exact hR.trans hname (hR.group rfl h)
  · cases h
    exact hname

theorem afterSimple (hR : Passing R) {s rest : Text} (h : afterSimple s = .ok rest) :
    R s rest := by
  unfold TypeExpr.afterSimple at h
  split at h
  · cases h
  · split at h
    · rename_i hgroup
      simp only [Bool.or_eq_true, decide_eq_true_eq] at hgroup
      rcases hgroup with rfl | rfl
      · exact hR.group rfl h
      · exact hR.group rfl h
    · split at h
      · rename_i hquote
        simp only [Bool.or_eq_true, decide_eq_true_eq] at hquote
        exact hR.literal hquote h
      · split at h
        · exact hR.afterName h
        · cases h

theorem dropSuffixes (hR : Passing R) (s : Text) : R s (dropSuffixes s) := by
  fun_induction TypeExpr.dropSuffixes s with
  | case1 rest ih => exact hR.trans (hR.brackets rest) ih
  | case2 rest ih => exact hR.trans (hR.plain rest rfl) ih
  | case3 rest _ _ => exact hR.refl rest

theorem arguments (hR : Passing R) {s args behind : Text} (hargs : argumentList? s = some args)
    (hgroup : afterGroup args = .ok behind) : R s behind := by
  unfold argumentList? at hargs
  split at hargs
  · cases hargs
    have hfun : ∀ c ∈ "fun".toList, isPlain c := List.all_eq_true.mp rfl
    exact hR.trans (hR.run hfun _) (hR.group rfl hgroup)
  · cases hargs
    have hfun : ∀ c ∈ "fun ".toList, isPlain c := List.all_eq_true.mp rfl
    exact hR.trans (hR.run hfun _) (hR.group rfl hgroup)
  · cases hargs

theorem returnPart? (hR : Passing R) {s ret : Text} (h : returnPart? s = some ret) : R s ret := by
  unfold TypeExpr.returnPart? at h
  split at h
  · rename_i rest hcolon
    cases h
    exact hR.skipBlanks_cons hcolon rfl
  · cases h

theorem afterPrimary (hR : Passing R) {s rest : Text} (h : afterPrimary s = .ok rest) :
    R s rest := by
  fun_induction TypeExpr.afterPrimary s generalizing rest with
  | case1 s hargs => exact hR.afterSimple h
  | case2 s args hargs e hgroup => cases h
  | case3 s args hargs behind hgroup hret =>
      cases h
      exact hR.arguments hargs hgroup
  | case4 s args hargs behind hgroup ret hret hopen =>
      obtain ⟨tail, rfl⟩ := List.head?_eq_some_iff.mp hopen
      have hfront := hR.trans (hR.arguments hargs hgroup) (hR.returnPart? hret)
      exact hR.trans hfront (hR.group rfl h)
  | case5 s args hargs behind hgroup ret hret hopen ih =>
      obtain ⟨tail, hprimary, rfl⟩ := map_dropSuffixes_eq_ok.mp h
      have hfront := hR.trans (hR.arguments hargs hgroup) (hR.returnPart? hret)
      exact hR.trans hfront (hR.trans (ih hprimary) (hR.dropSuffixes tail))

theorem afterSuffixed (hR : Passing R) {s rest : Text} (h : afterSuffixed s = .ok rest) :
    R s rest := by
  obtain ⟨behind, hprimary, rfl⟩ := map_dropSuffixes_eq_ok.mp h
  exact hR.trans (hR.afterPrimary hprimary) (hR.dropSuffixes behind)

theorem afterAlternatives (hR : Passing R) {s rest : Text} (h : afterAlternatives s = .ok rest) :
    R s rest := by
  fun_induction TypeExpr.afterAlternatives s generalizing rest with
  | case1 s rest' hbar e hnext => cases h
  | case2 s rest' hbar behind hnext ih =>
      exact hR.trans (hR.skipBlanks_cons hbar rfl) (hR.trans (hR.afterSuffixed hnext) (ih h))
  | case3 s hno =>
      cases h
      exact hR.refl s

theorem afterUnion (hR : Passing R) {s rest : Text} (h : afterUnion s = .ok rest) : R s rest := by
  unfold TypeExpr.afterUnion at h
  split at h
  · rename_i hempty
    cases h
    rw [List.isEmpty_iff.mp hempty]
    exact hR.refl []
  · cases hfirst : TypeExpr.afterSuffixed s with
    | error e =>
        rw [hfirst] at h
        cases h
    | ok behind =>
        rw [hfirst] at h
        exact hR.trans (hR.afterSuffixed hfirst) (hR.afterAlternatives h)

end Passing

end TypeExpr
end ApiManual
