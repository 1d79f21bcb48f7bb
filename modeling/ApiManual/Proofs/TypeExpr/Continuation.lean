import ApiManual.Proofs.TypeExpr.Traversal

/-!
# Where a type expression ends

A type in front of a description is read as far as it would be read alone, when a blank
stands between the two and the description does not begin like the rest of a type.
-/

namespace ApiManual
namespace TypeExpr

open Text

/-- A callable without returns stands at the end. -/
def EndsInCallable (s : Text) : Prop :=
  ∃ t args behind, t <:+ s ∧ argumentList? t = some args ∧ afterGroup args = .ok behind ∧
    skipBlanks behind = []

/-- The word `fun` stands at the end. -/
def EndsInFun (s : Text) : Prop :=
  ∃ front, s = front ++ "fun".toList ∧ ∀ c ∈ front.getLast?, isNameChar c = false

/-- A description that does not continue the type in front of it: it opens no further
alternative, and gives neither returns nor arguments to a callable that lacks them. -/
structure Separate (type details : Text) : Prop where
  noBlank : ∀ c ∈ details.head?, isBlank c = false
  noBar : details.head? ≠ some '|'
  noColon : EndsInCallable type → details.head? ≠ some ':'
  noGroup : EndsInFun type → details.head? ≠ some '('

namespace Separate

theorem skipBlanks_details {type details : Text} (h : Separate type details) :
    skipBlanks (' ' :: details) = details := by
  rw [skipBlanks_space, skipBlanks_eq_self h.noBlank]

theorem of_append {front rest details : Text} (h : Separate (front ++ rest) details)
    (hfront : ∀ c ∈ front.getLast?, isNameChar c = false) : Separate rest details where
  noBlank := h.noBlank
  noBar := h.noBar
  noColon := by
    rintro ⟨t, args, behind, ht, hparts⟩
    exact h.noColon ⟨t, args, behind, ht.trans (List.suffix_append front rest), hparts⟩
  noGroup := by
    rintro ⟨start, rfl, hstart⟩
    apply h.noGroup
    refine ⟨front ++ start, by simp, ?_⟩
    cases start with
    | nil => simpa using hfront
    | cons c start => rwa [List.getLast?_append_of_ne_nil _ (by simp)]

/-- A description that begins with a letter can stand behind every type. -/
theorem of_isAlpha {type details : Text} {c : Char} (hhead : details.head? = some c)
    (hletter : c.isAlpha) : Separate type details := by
  have hne : ∀ d : Char, d.isAlpha = false → details.head? ≠ some d := by
    intro d hd hhead'
    rw [hhead, Option.some_inj] at hhead'
    rw [← hhead', hletter] at hd
    cases hd
  constructor
  · intro d hd
    rw [hhead] at hd
    cases hd
    cases hblank : isBlank c with
    | false => rfl
    | true =>
        simp only [isBlank, Bool.or_eq_true, decide_eq_true_eq] at hblank
        rcases hblank with rfl | rfl <;> cases hletter
  · exact hne '|' rfl
  · exact fun _ => hne ':' rfl
  · exact fun _ => hne '(' rfl

theorem behind {type s next details : Text} (h : Separate type details) (hs : s <:+ type)
    (hnext : ∃ front, s = front ++ next ∧ front ≠ [] ∧
      ∀ c ∈ front.getLast?, isNameChar c = false) : Separate next details := by
  obtain ⟨start, rfl⟩ := hs
  obtain ⟨front, rfl, hne, hfront⟩ := hnext
  rw [← List.append_assoc] at h
  apply h.of_append
  rwa [List.getLast?_append_of_ne_nil _ hne]

end Separate

theorem isNameChar_of_isBlank {c : Char} (h : isBlank c) : isNameChar c = false := by
  simp only [isBlank, Bool.or_eq_true, decide_eq_true_eq] at h
  rcases h with rfl | rfl <;> rfl

/-- Blanks behind a character that belongs to no name end no name. -/
theorem exists_front_of_skipBlanks {s rest : Text} {c : Char} (h : skipBlanks s = c :: rest)
    (hc : isNameChar c = false) :
    ∃ front, s = front ++ skipBlanks rest ∧ front ≠ [] ∧
      ∀ d ∈ front.getLast?, isNameChar d = false := by
  refine ⟨s.takeWhile isBlank ++ c :: rest.takeWhile isBlank, ?_, by simp, ?_⟩
  · calc
      s = s.takeWhile isBlank ++ skipBlanks s := (List.takeWhile_append_dropWhile).symm
      _ = s.takeWhile isBlank ++ c :: (rest.takeWhile isBlank ++ skipBlanks rest) := by
        rw [h, skipBlanks, List.takeWhile_append_dropWhile]
      _ = (s.takeWhile isBlank ++ c :: rest.takeWhile isBlank) ++ skipBlanks rest := by simp
  · intro d hd
    rw [List.getLast?_append_of_ne_nil _ (by simp)] at hd
    rcases List.mem_cons.mp (List.mem_of_getLast? hd) with rfl | hmem
    · exact hc
    · exact isNameChar_of_isBlank (List.mem_takeWhile_imp hmem)

theorem skipBlanks_append {s : Text} (h : skipBlanks s ≠ []) (t : Text) :
    skipBlanks (s ++ t) = skipBlanks s ++ t := by
  unfold skipBlanks at *
  rw [List.dropWhile_append, if_neg (by simpa using h)]

theorem skipBlanks_append_of_nil {s : Text} (h : skipBlanks s = []) (t : Text) :
    skipBlanks (s ++ t) = skipBlanks t := by
  unfold skipBlanks at *
  rw [List.dropWhile_append, if_pos (by simpa using h)]

/-! ## The parts of a primary -/

theorem cutAtClose_append {depth : ℕ} {s inside behind : Text}
    (h : cutAtClose depth s = some (inside, behind)) (t : Text) :
    cutAtClose depth (s ++ t) = some (inside, behind ++ t) := by
  induction s generalizing depth inside with
  | nil => simp [cutAtClose] at h
  | cons c s ih =>
      rw [cutAtClose] at h
      rw [List.cons_append, cutAtClose]
      split at h
      · rename_i hclose
        rw [if_pos hclose]
        cases h
        rfl
      · rename_i hopen
        rw [if_neg hopen]
        obtain ⟨⟨inner, rest⟩, hcut, heq⟩ := Option.map_eq_some_iff.mp h
        cases heq
        rw [ih hcut]
        rfl

theorem afterGroup_append {s rest : Text} (h : afterGroup s = .ok rest) (t : Text) :
    afterGroup (s ++ t) = .ok (rest ++ t) := by
  unfold afterGroup at *
  split at h
  · rename_i inside behind hcut
    cases h
    rw [cutAtClose_append hcut]
  · cases h

theorem afterLiteral_append {quote : Char} {s rest : Text}
    (h : afterLiteral quote s = .ok rest) (t : Text) :
    afterLiteral quote (s ++ t) = .ok (rest ++ t) := by
  unfold afterLiteral at *
  cases hdrop : s.dropWhile (· ≠ quote) with
  | nil =>
      rw [hdrop] at h
      cases h
  | cons c behind =>
      rw [hdrop] at h
      cases h
      rw [List.dropWhile_append, hdrop]
      rfl

theorem afterName_of_ne {s : Text} (h : (s.dropWhile isNameChar).head? ≠ some '<') :
    afterName s = .ok (s.dropWhile isNameChar) := by
  unfold afterName
  split
  · rename_i heq
    simp [heq] at h
  · rfl

theorem afterName_append {s rest : Text} (h : afterName s = .ok rest) (details : Text) :
    afterName (s ++ ' ' :: details) = .ok (rest ++ ' ' :: details) := by
  by_cases hangle : (s.dropWhile isNameChar).head? = some '<'
  · obtain ⟨behind, hdrop⟩ := List.head?_eq_some_iff.mp hangle
    unfold afterName at *
    rw [List.dropWhile_append, hdrop]
    rw [hdrop] at h
    exact afterGroup_append h _
  · rw [afterName_of_ne hangle] at h
    cases h
    have hdrop : (s ++ ' ' :: details).dropWhile isNameChar =
        s.dropWhile isNameChar ++ ' ' :: details := by
      rw [List.dropWhile_append]
      split
      · rename_i hempty
        rw [List.isEmpty_iff.mp hempty]
        rfl
      · rfl
    rw [afterName_of_ne, hdrop]
    rw [hdrop]
    cases hrest : s.dropWhile isNameChar with
    | nil => simp
    | cons c behind => simpa [hrest] using hangle

theorem afterSimple_of_isNameChar {s : Text} (hne : s ≠ [])
    (hhead : ∀ c ∈ s.head?, isNameChar c) : afterSimple s = afterName s := by
  cases s with
  | nil => exact absurd rfl hne
  | cons c s =>
      have hc : isNameChar c := hhead c rfl
      have hgroup : ¬(c = '(' || c = '\x7b') := by
        intro hgroup
        simp only [Bool.or_eq_true, decide_eq_true_eq] at hgroup
        rcases hgroup with rfl | rfl <;> cases hc
      have hquote : ¬(c = '"' || c = '\'') := by
        intro hquote
        simp only [Bool.or_eq_true, decide_eq_true_eq] at hquote
        rcases hquote with rfl | rfl <;> cases hc
      rw [afterSimple, if_neg hgroup, if_neg hquote, if_pos hc]

theorem afterSimple_append {s rest : Text} (h : afterSimple s = .ok rest) (details : Text) :
    afterSimple (s ++ ' ' :: details) = .ok (rest ++ ' ' :: details) := by
  cases s with
  | nil => cases h
  | cons c s =>
      rw [List.cons_append]
      unfold afterSimple at *
      by_cases hgroup : c = '(' || c = '\x7b'
      · simp only [hgroup, if_true] at h ⊢
        exact afterGroup_append h _
      · by_cases hquote : c = '"' || c = '\''
        · simp only [hgroup, hquote, if_true] at h ⊢
          exact afterLiteral_append h _
        · by_cases hname : isNameChar c
          · simp only [hgroup, hquote, hname, if_true] at h ⊢
            exact afterName_append h _
          · simp only [hgroup, hquote, hname] at h
            cases h

theorem dropSuffixes_eq_self {s : Text} (hbrackets : ∀ rest, s ≠ '[' :: ']' :: rest)
    (hmark : ∀ rest, s ≠ '?' :: rest) : dropSuffixes s = s := by
  unfold dropSuffixes
  split
  · exact absurd rfl (hbrackets _)
  · exact absurd rfl (hmark _)
  · rfl

theorem dropSuffixes_append (s details : Text) :
    dropSuffixes (s ++ ' ' :: details) = dropSuffixes s ++ ' ' :: details := by
  fun_induction dropSuffixes s with
  | case1 rest ih => exact ih
  | case2 rest ih => exact ih
  | case3 rest hbrackets hmark =>
      apply dropSuffixes_eq_self
      · rintro tail heq
        rcases rest with _ | ⟨c, _ | ⟨d, rest⟩⟩
        · simp at heq
        · simp at heq
        · simp only [List.cons_append, List.cons.injEq] at heq
          obtain ⟨rfl, rfl, -⟩ := heq
          exact hbrackets rest rfl
      · rintro tail heq
        rcases rest with _ | ⟨c, rest⟩
        · simp at heq
        · simp only [List.cons_append, List.cons.injEq] at heq
          obtain ⟨rfl, -⟩ := heq
          exact hmark rest rfl

theorem argumentList?_append {s args : Text} (h : argumentList? s = some args) (t : Text) :
    argumentList? (s ++ t) = some (args ++ t) := by
  unfold argumentList? at h
  split at h
  · cases h
    rfl
  · cases h
    rfl
  · cases h

theorem argumentList?_append_none {s details : Text} (h : argumentList? s = none)
    (hsep : Separate s details) : argumentList? (s ++ ' ' :: details) = none := by
  have hgroup : s = "fun".toList → details.head? ≠ some '(' := by
    intro hs
    exact hsep.noGroup ⟨[], hs, by simp⟩
  unfold argumentList? at *
  split
  · rename_i rest heq
    rcases s with _ | ⟨a, _ | ⟨b, _ | ⟨c, _ | ⟨d, s⟩⟩⟩⟩ <;> simp_all
  · rename_i rest heq
    rcases s with _ | ⟨a, _ | ⟨b, _ | ⟨c, _ | ⟨d, _ | ⟨e, s⟩⟩⟩⟩⟩ <;> simp_all
  · rfl

theorem returnPart?_append {s ret : Text} (h : returnPart? s = some ret) (hret : ret ≠ [])
    (t : Text) : returnPart? (s ++ t) = some (ret ++ t) := by
  unfold returnPart? at *
  split at h
  · rename_i rest hcolon
    cases h
    rw [skipBlanks_append (by simp [hcolon]), hcolon]
    simp only [List.cons_append, skipBlanks_append hret]
  · cases h

theorem returnPart?_append_none {type s details : Text} (h : returnPart? s = none)
    (hsep : Separate type details) (hend : skipBlanks s = [] → EndsInCallable type) :
    returnPart? (s ++ ' ' :: details) = none := by
  have hcolon : (skipBlanks (s ++ ' ' :: details)).head? ≠ some ':' := by
    by_cases hnil : skipBlanks s = []
    · rw [skipBlanks_append_of_nil hnil, hsep.skipBlanks_details]
      exact hsep.noColon (hend hnil)
    · rw [skipBlanks_append hnil, List.head?_append_of_ne_nil _ hnil]
      intro hhead
      obtain ⟨rest, hrest⟩ := List.head?_eq_some_iff.mp hhead
      simp [returnPart?, hrest] at h
  unfold returnPart?
  split
  · rename_i rest heq
    simp [heq] at hcolon
  · rfl

theorem returnPart?_front {s ret : Text} (h : returnPart? s = some ret) :
    ∃ front, s = front ++ ret ∧ front ≠ [] ∧ ∀ c ∈ front.getLast?, isNameChar c = false := by
  unfold returnPart? at h
  split at h
  · rename_i rest hcolon
    cases h
    exact exists_front_of_skipBlanks hcolon rfl
  · cases h

theorem cutAtClose_suffix {depth : ℕ} {s inside behind : Text}
    (h : cutAtClose depth s = some (inside, behind)) : behind <:+ s := by
  induction s generalizing depth inside with
  | nil => simp [cutAtClose] at h
  | cons c s ih =>
      rw [cutAtClose] at h
      split at h
      · cases h
        exact List.suffix_cons c _
      · obtain ⟨⟨inner, rest⟩, hcut, heq⟩ := Option.map_eq_some_iff.mp h
        cases heq
        exact (ih hcut).trans (List.suffix_cons c _)

theorem afterGroup_suffix {s rest : Text} (h : afterGroup s = .ok rest) : rest <:+ s := by
  unfold afterGroup at h
  split at h
  · rename_i inside behind hcut
    cases h
    exact cutAtClose_suffix hcut
  · cases h

theorem afterLiteral_suffix {quote : Char} {s rest : Text}
    (h : afterLiteral quote s = .ok rest) : rest <:+ s := by
  unfold afterLiteral at h
  split at h
  · rename_i c behind hdrop
    cases h
    have hsuffix := List.dropWhile_suffix (l := s) (· ≠ quote)
    rw [hdrop] at hsuffix
    exact (List.suffix_cons c _).trans hsuffix
  · cases h

/-- What is left of a text stands at its end. -/
theorem passing_suffix : Passing fun s rest => rest <:+ s where
  refl := fun _ => List.suffix_rfl
  trans := fun hst htu => htu.trans hst
  plain := fun rest _ => List.suffix_cons _ rest
  brackets := fun rest => List.suffix_append ['[', ']'] rest
  group := fun _ h => afterGroup_suffix h
  literal := fun _ h => (afterLiteral_suffix h).trans (List.suffix_cons _ _)

/-! ## Primaries, suffixed primaries, unions -/

def afterReturns (s : Text) : Except TypeError Text :=
  match returnPart? s with
  | none => .ok s
  | some ret => if ret.head? = some '(' then afterGroup ret else afterSuffixed ret

theorem afterPrimary_simple {s : Text} (h : argumentList? s = none) :
    afterPrimary s = afterSimple s := by
  rw [afterPrimary]
  split
  · rfl
  · rename_i args hargs
    rw [h] at hargs
    cases hargs

theorem afterPrimary_callable {s args : Text} (h : argumentList? s = some args) :
    afterPrimary s = (afterGroup args).bind afterReturns := by
  fun_cases afterPrimary s with
  | case1 hargs => simp [h] at hargs
  | case2 args' hargs e hgroup =>
      cases h.symm.trans hargs
      rw [hgroup]
      rfl
  | case3 args' hargs behind hgroup hret =>
      cases h.symm.trans hargs
      rw [hgroup]
      simp [Except.bind, afterReturns, hret]
  | case4 args' hargs behind hgroup ret hret hopen =>
      cases h.symm.trans hargs
      rw [hgroup]
      simp [Except.bind, afterReturns, hret, hopen]
  | case5 args' hargs behind hgroup ret hret hopen =>
      cases h.symm.trans hargs
      rw [hgroup]
      simp [Except.bind, afterReturns, hret, hopen, afterSuffixed]

theorem ne_nil_of_afterPrimary {s rest : Text} (h : afterPrimary s = .ok rest) : s ≠ [] := by
  rintro rfl
  exact absurd (length_afterPrimary h) (by simp)

theorem afterPrimary_append {s rest details : Text} (h : afterPrimary s = .ok rest)
    (hsep : Separate s details) :
    afterPrimary (s ++ ' ' :: details) = .ok (rest ++ ' ' :: details) := by
  fun_induction afterPrimary s generalizing rest with
  | case1 s hargs =>
      rw [afterPrimary_simple (argumentList?_append_none hargs hsep)]
      exact afterSimple_append h details
  | case2 s args hargs e hgroup => cases h
  | case3 s args hargs behind hgroup hret =>
      cases h
      have hend : skipBlanks behind = [] → EndsInCallable s :=
        fun hnil => ⟨s, args, behind, List.suffix_rfl, hargs, hgroup, hnil⟩
      rw [afterPrimary_callable (argumentList?_append hargs _), afterGroup_append hgroup]
      simp [Except.bind, afterReturns, returnPart?_append_none hret hsep hend]
  | case4 s args hargs behind hgroup ret hret hopen =>
      have hne : ret ≠ [] := by
        rintro rfl
        cases hopen
      rw [afterPrimary_callable (argumentList?_append hargs _), afterGroup_append hgroup]
      simp [Except.bind, afterReturns, returnPart?_append hret hne,
        List.head?_append_of_ne_nil _ hne, hopen, afterGroup_append h]
  | case5 s args hargs behind hgroup ret hret hopen ih =>
      obtain ⟨tail, hprimary, rfl⟩ := map_dropSuffixes_eq_ok.mp h
      have hne := ne_nil_of_afterPrimary hprimary
      have hnext :=
        ih hprimary (hsep.behind (passing_suffix.arguments hargs hgroup) (returnPart?_front hret))
      rw [afterPrimary_callable (argumentList?_append hargs _), afterGroup_append hgroup]
      simp [Except.bind, afterReturns, returnPart?_append hret hne,
        List.head?_append_of_ne_nil _ hne, hopen, afterSuffixed, hnext, Except.map,
        dropSuffixes_append]

theorem afterSuffixed_append {s rest details : Text} (h : afterSuffixed s = .ok rest)
    (hsep : Separate s details) :
    afterSuffixed (s ++ ' ' :: details) = .ok (rest ++ ' ' :: details) := by
  obtain ⟨behind, hprimary, rfl⟩ := map_dropSuffixes_eq_ok.mp h
  rw [afterSuffixed, afterPrimary_append hprimary hsep]
  simp [Except.map, dropSuffixes_append]

theorem ne_nil_of_afterSuffixed {s rest : Text} (h : afterSuffixed s = .ok rest) : s ≠ [] := by
  rintro rfl
  exact absurd (length_afterSuffixed h) (by simp)

theorem afterAlternatives_bar {s rest : Text} (h : skipBlanks s = '|' :: rest) :
    afterAlternatives s = (afterSuffixed (skipBlanks rest)).bind afterAlternatives := by
  fun_cases afterAlternatives s with
  | case1 rest' hbar e hnext =>
      cases h.symm.trans hbar
      rw [hnext]
      rfl
  | case2 rest' hbar behind hnext =>
      cases h.symm.trans hbar
      rw [hnext]
      rfl
  | case3 hno => exact absurd h (hno rest)

theorem afterAlternatives_stop {s : Text} (h : (skipBlanks s).head? ≠ some '|') :
    afterAlternatives s = .ok s := by
  fun_cases afterAlternatives s with
  | case1 rest' hbar e hnext => simp [hbar] at h
  | case2 rest' hbar behind hnext => simp [hbar] at h
  | case3 hno => rfl

theorem afterUnion_of_afterPrimary {s : Text} (h : afterPrimary s = .ok []) :
    afterUnion s = .ok [] := by
  have hne : s ≠ [] := ne_nil_of_afterPrimary h
  rw [afterUnion, if_neg (by simpa using hne), afterSuffixed, h]
  exact afterAlternatives_stop (by simp [skipBlanks, dropSuffixes])

theorem afterAlternatives_append {type s rest details : Text}
    (h : afterAlternatives s = .ok rest) (hs : s <:+ type) (hsep : Separate type details) :
    afterAlternatives (s ++ ' ' :: details) = .ok (rest ++ ' ' :: details) := by
  fun_induction afterAlternatives s generalizing rest with
  | case1 s rest' hbar e hnext => cases h
  | case2 s rest' hbar behind hnext ih =>
      have hfront := exists_front_of_skipBlanks hbar rfl
      have hnextSep := hsep.behind hs hfront
      have hnextSuffix : skipBlanks rest' <:+ type := by
        obtain ⟨front, hfront, -, -⟩ := hfront
        exact (hfront ▸ List.suffix_append front _).trans hs
      have hbar' : skipBlanks (s ++ ' ' :: details) = '|' :: (rest' ++ ' ' :: details) := by
        rw [skipBlanks_append (by simp [hbar]), hbar, List.cons_append]
      rw [afterAlternatives_bar hbar', skipBlanks_append (ne_nil_of_afterSuffixed hnext),
        afterSuffixed_append hnext hnextSep]
      exact ih h ((passing_suffix.afterSuffixed hnext).trans hnextSuffix)
  | case3 s hno =>
      cases h
      apply afterAlternatives_stop
      by_cases hnil : skipBlanks s = []
      · rw [skipBlanks_append_of_nil hnil, hsep.skipBlanks_details]
        exact hsep.noBar
      · rw [skipBlanks_append hnil, List.head?_append_of_ne_nil _ hnil]
        intro hhead
        obtain ⟨tail, htail⟩ := List.head?_eq_some_iff.mp hhead
        exact hno tail htail

/-- A union is read off the front of a longer text as if it stood alone. -/
theorem afterUnion_append {s details : Text} (h : afterUnion s = .ok []) (hne : s ≠ [])
    (hsep : Separate s details) : afterUnion (s ++ ' ' :: details) = .ok (' ' :: details) := by
  unfold afterUnion at *
  rw [if_neg (by simpa using hne)] at h
  rw [if_neg (by simp)]
  cases hfirst : afterSuffixed s with
  | error e =>
      rw [hfirst] at h
      cases h
  | ok rest =>
      rw [hfirst] at h
      rw [afterSuffixed_append hfirst hsep]
      exact afterAlternatives_append h (passing_suffix.afterSuffixed hfirst) hsep

end TypeExpr
end ApiManual
