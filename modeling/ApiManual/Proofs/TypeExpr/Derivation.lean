import ApiManual.Proofs.Result
import ApiManual.Proofs.TypeExpr.Grammar

/-!
# Reading and deriving type expressions

The scanner takes as much of a text as it can.  What it takes the grammar derives, and
nothing is lost by its choices: behind a whole expression nothing can stand that would
have made a shorter choice right.
-/

namespace ApiManual
namespace TypeExpr

open Text

/-! ## What the scanner reads is derived -/

theorem blanks_takeWhile (s : Text) : Blanks (s.takeWhile isBlank) :=
  fun _ hc => List.mem_takeWhile_imp hc

theorem takeWhile_append_skipBlanks (s : Text) : s.takeWhile isBlank ++ skipBlanks s = s :=
  List.takeWhile_append_dropWhile

/-- What stands behind blanks and one character, with the blanks behind that. -/
theorem eq_blanks_of_skipBlanks {s rest : Text} {c : Char} (h : skipBlanks s = c :: rest) :
    s = s.takeWhile isBlank ++ c :: (rest.takeWhile isBlank ++ skipBlanks rest) := by
  rw [takeWhile_append_skipBlanks, ← h, takeWhile_append_skipBlanks]

theorem callHead_of_afterGroup {s list behind : Text} (hlist : argumentList? s = some list)
    (hgroup : afterGroup list = .ok behind) : ∃ args, CallHead s args behind := by
  unfold argumentList? at hlist
  split at hlist
  · cases hlist
    obtain ⟨group, heq, hgroup⟩ := exists_group_of_afterGroup rfl hgroup
    rw [heq]
    exact ⟨_, @CallHead.mk [] _ _ (Or.inl rfl) hgroup⟩
  · cases hlist
    obtain ⟨group, heq, hgroup⟩ := exists_group_of_afterGroup rfl hgroup
    rw [heq]
    exact ⟨_, @CallHead.mk [' '] _ _ (Or.inr rfl) hgroup⟩
  · cases hlist

theorem eq_of_returnPart? {s ret : Text} (h : returnPart? s = some ret) :
    ∃ before after, s = before ++ ':' :: (after ++ ret) ∧ Blanks before ∧ Blanks after := by
  unfold returnPart? at h
  split at h
  · rename_i rest hcolon
    cases h
    exact ⟨_, _, eq_blanks_of_skipBlanks hcolon, blanks_takeWhile s, blanks_takeWhile rest⟩
  · cases h

theorem primary_of_afterLiteral {quote : Char} {s rest : Text}
    (hquote : quote = '"' ∨ quote = '\'') (h : afterLiteral quote s = .ok rest) :
    Primary (quote :: s) rest := by
  have hs : s.takeWhile (· ≠ quote) ++ s.dropWhile (· ≠ quote) = s :=
    List.takeWhile_append_dropWhile
  have hinside : quote ∉ s.takeWhile (· ≠ quote) := by
    intro hmem
    simpa using List.mem_takeWhile_imp hmem
  unfold afterLiteral at h
  split at h
  · rename_i c behind hdrop
    cases h
    have hhead : c ∈ (s.dropWhile (· ≠ quote)).head? := by
      rw [hdrop]
      rfl
    have hc : c = quote := by
      simpa using head?_dropWhile_of_mem hhead
    subst hc
    rw [hdrop] at hs
    rw [← hs]
    exact .literal hquote hinside
  · cases h

theorem primary_of_afterName {c : Char} {s rest : Text} (hc : isNameChar c)
    (h : afterName (c :: s) = .ok rest) : Primary (c :: s) rest := by
  have hs : (c :: s).takeWhile isNameChar ++ (c :: s).dropWhile isNameChar = c :: s :=
    List.takeWhile_append_dropWhile
  have hrun : NameRun ((c :: s).takeWhile isNameChar) ((c :: s).dropWhile isNameChar) :=
    ⟨by simp [hc], fun _ hd => List.mem_takeWhile_imp hd, fun _ hd => head?_dropWhile_of_mem hd⟩
  rw [← hs]
  unfold afterName at h
  split at h
  · rename_i behind hdrop
    obtain ⟨group, heq, hgroup⟩ := exists_group_of_afterGroup rfl h
    rw [hdrop, heq] at hrun ⊢
    exact .applied hrun hgroup
  · cases h
    exact .name hrun

theorem primary_of_afterSimple {s rest : Text} (h : afterSimple s = .ok rest) :
    Primary s rest := by
  unfold afterSimple at h
  split at h
  · cases h
  · rename_i c tail
    split at h
    · rename_i hopening
      simp only [Bool.or_eq_true, decide_eq_true_eq] at hopening
      rcases hopening with rfl | rfl
      · obtain ⟨group, heq, hgroup⟩ := exists_group_of_afterGroup rfl h
        rw [heq]
        exact .round hgroup
      · obtain ⟨group, heq, hgroup⟩ := exists_group_of_afterGroup rfl h
        rw [heq]
        exact .curly hgroup
    · split at h
      · rename_i hquote
        exact primary_of_afterLiteral (by simpa using hquote) h
      · split at h
        · rename_i hname
          exact primary_of_afterName hname h
        · cases h

theorem postfix_of_dropSuffixes {s rest : Text} (h : Postfix s rest) :
    Postfix s (dropSuffixes rest) := by
  fun_induction dropSuffixes rest with
  | case1 rest ih => exact ih h.brackets
  | case2 rest ih => exact ih h.mark
  | case3 rest _ _ => exact h

theorem callable_of_single {s args ret rest behind : Text} (hhead : CallHead s args behind)
    (hpart : returnPart? behind = some ret) (hopen : ret.head? ≠ some '(')
    (hret : Postfix ret rest) (hsuffix : rest <:+ ret) :
    ∃ returns, Callable s args returns rest := by
  obtain ⟨before, after, rfl, hbefore, hafter⟩ := eq_of_returnPart? hpart
  obtain ⟨front, rfl⟩ := hsuffix
  exact ⟨front, .single hhead hbefore hafter hret hopen⟩

/-- What the scanner takes for a primary is one, and a callable where it begins like one. -/
theorem derived_of_afterPrimary {s rest : Text} (h : afterPrimary s = .ok rest) :
    argumentList? s = none ∧ Primary s rest ∨ ∃ args returns, Callable s args returns rest := by
  fun_induction afterPrimary s generalizing rest with
  | case1 s hargs => exact Or.inl ⟨hargs, primary_of_afterSimple h⟩
  | case2 s list hargs e hgroup => cases h
  | case3 s list hargs behind hgroup hret =>
      cases h
      obtain ⟨args, hhead⟩ := callHead_of_afterGroup hargs hgroup
      exact Or.inr ⟨args, [], .bare hhead⟩
  | case4 s list hargs behind hgroup ret hret hopen =>
      obtain ⟨args, hhead⟩ := callHead_of_afterGroup hargs hgroup
      obtain ⟨before, after, rfl, hbefore, hafter⟩ := eq_of_returnPart? hret
      obtain ⟨tail, rfl⟩ := List.head?_eq_some_iff.mp hopen
      obtain ⟨group, heq, hround⟩ := exists_group_of_afterGroup rfl h
      rw [heq] at hhead
      exact Or.inr ⟨args, interior group, .grouped hhead hbefore hafter hround⟩
  | case5 s list hargs behind hgroup ret hret hopen ih =>
      obtain ⟨args, hhead⟩ := callHead_of_afterGroup hargs hgroup
      obtain ⟨tail, hprimary, rfl⟩ := map_dropSuffixes_eq_ok.mp h
      have hderived : Primary ret tail := by
        rcases ih hprimary with ⟨-, hderived⟩ | ⟨_, _, hcallable⟩
        · exact hderived
        · exact .callable hcallable
      have hpostfix := postfix_of_dropSuffixes (.primary hderived)
      have hsuffix := (passing_suffix.dropSuffixes tail).trans (passing_suffix.afterPrimary hprimary)
      obtain ⟨returns, hcallable⟩ := callable_of_single hhead hret hopen hpostfix hsuffix
      exact Or.inr ⟨args, returns, hcallable⟩

theorem postfix_of_afterSuffixed {s rest : Text} (h : afterSuffixed s = .ok rest) :
    Postfix s rest := by
  obtain ⟨behind, hprimary, rfl⟩ := map_dropSuffixes_eq_ok.mp h
  apply postfix_of_dropSuffixes
  rcases derived_of_afterPrimary hprimary with ⟨-, hderived⟩ | ⟨_, _, hcallable⟩
  · exact .primary hderived
  · exact .primary (.callable hcallable)

theorem union_of_afterAlternatives {s behind rest : Text} (h : afterAlternatives behind = .ok rest)
    (hs : Postfix s behind) : Union s rest := by
  fun_induction afterAlternatives behind generalizing s with
  | case1 behind next hbar e hnext => cases h
  | case2 behind next hbar rest' hnext ih =>
      rw [eq_blanks_of_skipBlanks hbar] at hs
      exact .more hs (blanks_takeWhile behind) (blanks_takeWhile next)
        (ih h (postfix_of_afterSuffixed hnext))
  | case3 behind hno =>
      cases h
      exact .single hs

theorem union_of_afterUnion {s rest : Text} (hne : s ≠ []) (h : afterUnion s = .ok rest) :
    Union s rest := by
  rw [afterUnion, if_neg (by simpa using hne)] at h
  obtain ⟨behind, hfirst, hrest⟩ := exists_of_bind_ok h
  exact union_of_afterAlternatives hrest (postfix_of_afterSuffixed hfirst)

/-! ## What is derived is read -/

/-- What stands behind a whole postfix: neither the group of a name or of the word `fun`,
nor the returns of a callable. -/
structure Stops (rest : Text) : Prop where
  noAngle : rest.head? ≠ some '<'
  noGroup : (skipBlanks rest).head? ≠ some '('
  noColon : (skipBlanks rest).head? ≠ some ':'

theorem Stops.of_head {c : Char} (hblank : isBlank c = false) (hangle : c ≠ '<')
    (hgroup : c ≠ '(') (hcolon : c ≠ ':') (rest : Text) : Stops (c :: rest) := by
  have hskip : skipBlanks (c :: rest) = c :: rest := skipBlanks_eq_self (by simpa using hblank)
  constructor <;> simp [hskip, hangle, hgroup, hcolon]

theorem Stops.nil : Stops [] := by
  constructor <;> simp [skipBlanks]

theorem skipBlanks_blanks {blanks : Text} (h : Blanks blanks) (s : Text) :
    skipBlanks (blanks ++ s) = skipBlanks s :=
  List.dropWhile_append_of_pos h

theorem skipBlanks_blanks_cons {blanks : Text} (h : Blanks blanks) {c : Char}
    (hc : isBlank c = false) (s : Text) : skipBlanks (blanks ++ c :: s) = c :: s :=
  dropWhile_append_cons h hc s

theorem head?_blanks_bar_ne {before : Text} (h : Blanks before) {d : Char}
    (hblank : isBlank d = false) (hbar : d ≠ '|') (rest : Text) :
    (before ++ '|' :: rest).head? ≠ some d := by
  cases before with
  | nil => simpa using hbar.symm
  | cons c before =>
      have hc : isBlank c := h c List.mem_cons_self
      simpa using ne_of_class hc hblank

theorem Stops.bar {before : Text} (h : Blanks before) (rest : Text) :
    Stops (before ++ '|' :: rest) := by
  have hskip := skipBlanks_blanks_cons h (c := '|') rfl rest
  exact ⟨head?_blanks_bar_ne h rfl (by decide) rest, by simp [hskip], by simp [hskip]⟩

theorem dropSuffixes_bar {before : Text} (h : Blanks before) (rest : Text) :
    dropSuffixes (before ++ '|' :: rest) = before ++ '|' :: rest := by
  apply dropSuffixes_eq_self
  · intro tail heq
    exact head?_blanks_bar_ne h (d := '[') rfl (by decide) rest (by rw [heq]; rfl)
  · intro tail heq
    exact head?_blanks_bar_ne h (d := '?') rfl (by decide) rest (by rw [heq]; rfl)

theorem dropSuffixes_dropSuffixes (s : Text) :
    dropSuffixes (dropSuffixes s) = dropSuffixes s := by
  fun_induction dropSuffixes s with
  | case1 rest ih => exact ih
  | case2 rest ih => exact ih
  | case3 rest hbrackets hmark => exact dropSuffixes_eq_self hbrackets hmark

theorem CallHead.argumentList?_eq {s args rest : Text} (h : CallHead s args rest) :
    ∃ group, argumentList? s = some (group ++ rest) ∧ Group '(' group ∧
      args = interior group := by
  obtain ⟨hgap, hgroup⟩ := h
  rename_i gap group
  obtain ⟨tail, rfl⟩ := List.head?_eq_some_iff.mp hgroup.head
  refine ⟨_, ?_, hgroup, rfl⟩
  rcases hgap with rfl | rfl <;> rfl

theorem CallHead.afterPrimary_eq {s args rest : Text} (h : CallHead s args rest) :
    afterPrimary s = afterReturns rest := by
  obtain ⟨group, hlist, hgroup, -⟩ := h.argumentList?_eq
  rw [afterPrimary_callable hlist, hgroup.afterGroup_eq rfl]
  rfl

theorem returnPart?_colon {before after ret : Text} (hbefore : Blanks before)
    (hafter : Blanks after) (hret : ∀ c ∈ ret.head?, isBlank c = false) :
    returnPart? (before ++ ':' :: (after ++ ret)) = some ret := by
  rw [returnPart?, skipBlanks_blanks_cons hbefore rfl]
  simp only [skipBlanks_blanks hafter, skipBlanks_eq_self hret]

theorem Group.head_not_blank {opening : Char} {group : Text} (h : Group opening group)
    (hopen : isBlank opening = false) (rest : Text) :
    ∀ c ∈ (group ++ rest).head?, isBlank c = false := by
  obtain ⟨tail, rfl⟩ := List.head?_eq_some_iff.mp h.head
  simpa using hopen

theorem NameRun.head {run rest : Text} (h : NameRun run rest) :
    ∀ c ∈ (run ++ rest).head?, isNameChar c := by
  rw [List.head?_append_of_ne_nil _ h.nonempty]
  exact fun c hc => h.names c (List.mem_of_mem_head? hc)

theorem NameRun.dropWhile_eq {run rest : Text} (h : NameRun run rest) :
    (run ++ rest).dropWhile isNameChar = rest :=
  dropWhile_append_stop h.names h.maximal

theorem NameRun.head_not_blank {run rest : Text} (h : NameRun run rest) :
    ∀ c ∈ (run ++ rest).head?, isBlank c = false := by
  intro c hc
  by_contra hblank
  rw [Bool.not_eq_false] at hblank
  have hname := h.head c hc
  simp [isNameChar_of_isBlank hblank] at hname

theorem NameRun.argumentList?_eq {run rest : Text} (h : NameRun run rest)
    (hgroup : (skipBlanks rest).head? ≠ some '(') : argumentList? (run ++ rest) = none := by
  rw [← h.dropWhile_eq] at hgroup
  unfold argumentList?
  split
  · rename_i list heq
    rw [heq] at hgroup
    exact absurd rfl hgroup
  · rename_i list heq
    rw [heq] at hgroup
    exact absurd rfl hgroup
  · rfl

theorem Primary.head_not_blank {s rest : Text} (h : Primary s rest) :
    ∀ c ∈ s.head?, isBlank c = false := by
  cases h with
  | callable h =>
      cases h with
      | bare h => cases h; simp [isBlank]
      | grouped h => cases h; simp [isBlank]
      | single h => cases h; simp [isBlank]
  | round h => exact h.head_not_blank rfl rest
  | curly h => exact h.head_not_blank rfl rest
  | literal hquote => rcases hquote with rfl | rfl <;> simp [isBlank]
  | name h => exact h.head_not_blank
  | applied h => exact h.head_not_blank

theorem Postfix.head_not_blank {s rest : Text} : Postfix s rest →
    ∀ c ∈ s.head?, isBlank c = false
  | .primary h => h.head_not_blank
  | .brackets h => h.head_not_blank
  | .mark h => h.head_not_blank

theorem Union.head_not_blank {s rest : Text} (h : Union s rest) :
    ∀ c ∈ s.head?, isBlank c = false := by
  cases h with
  | single h => exact h.head_not_blank
  | more h => exact h.head_not_blank

theorem afterPrimary_group {opening : Char} {group : Text} (h : Group opening group)
    (hopening : opening = '(' ∨ opening = '\x7b') (rest : Text) :
    afterPrimary (group ++ rest) = .ok rest := by
  have hread : ∀ hopen : isOpening opening, afterGroup (group ++ rest) = .ok rest :=
    fun hopen => h.afterGroup_eq hopen rest
  obtain ⟨tail, rfl⟩ := List.head?_eq_some_iff.mp h.head
  rw [List.cons_append] at hread ⊢
  rcases hopening with rfl | rfl
  · rw [afterPrimary_simple rfl]
    exact hread rfl
  · rw [afterPrimary_simple rfl]
    exact hread rfl

theorem afterPrimary_literal {quote : Char} (hquote : quote = '"' ∨ quote = '\'')
    {inside : Text} (hinside : quote ∉ inside) (rest : Text) :
    afterPrimary (quote :: (inside ++ quote :: rest)) = .ok rest := by
  have hread : afterLiteral quote (inside ++ quote :: rest) = .ok rest := by
    have hne : ∀ c ∈ inside, decide (c ≠ quote) := by
      intro c hc
      rw [decide_eq_true_eq]
      rintro rfl
      exact hinside hc
    rw [afterLiteral, dropWhile_append_cons hne (by simp)]
  rcases hquote with rfl | rfl
  · rw [afterPrimary_simple rfl]
    exact hread
  · rw [afterPrimary_simple rfl]
    exact hread

theorem NameRun.afterPrimary_eq {run rest : Text} (h : NameRun run rest) (hstop : Stops rest) :
    afterPrimary (run ++ rest) = .ok rest := by
  have hne : run ++ rest ≠ [] := by simp [h.nonempty]
  rw [afterPrimary_simple (h.argumentList?_eq hstop.noGroup),
    afterSimple_of_isNameChar hne h.head, afterName_of_ne, h.dropWhile_eq]
  rw [h.dropWhile_eq]
  exact hstop.noAngle

theorem NameRun.afterPrimary_applied {run group rest : Text} (h : NameRun run (group ++ rest))
    (hgroup : Group '<' group) : afterPrimary (run ++ (group ++ rest)) = .ok rest := by
  have hread := hgroup.afterGroup_eq rfl rest
  have hne : run ++ (group ++ rest) ≠ [] := by simp [h.nonempty]
  obtain ⟨tail, rfl⟩ := List.head?_eq_some_iff.mp hgroup.head
  rw [afterPrimary_simple (h.argumentList?_eq (by simp [skipBlanks, isBlank])),
    afterSimple_of_isNameChar hne h.head, afterName, h.dropWhile_eq]
  exact hread

theorem CallHead.afterPrimary_bare {s args rest : Text} (h : CallHead s args rest)
    (hstop : Stops rest) : afterPrimary s = .ok rest := by
  have hnone : returnPart? rest = none := by
    unfold returnPart?
    split
    · rename_i tail heq
      exact absurd (by rw [heq]; rfl) hstop.noColon
    · rfl
  rw [h.afterPrimary_eq, afterReturns, hnone]

theorem CallHead.afterPrimary_grouped {s args before after group rest : Text}
    (h : CallHead s args (before ++ ':' :: (after ++ (group ++ rest)))) (hbefore : Blanks before)
    (hafter : Blanks after) (hgroup : Group '(' group) : afterPrimary s = .ok rest := by
  have hpart := returnPart?_colon hbefore hafter (hgroup.head_not_blank rfl rest)
  have hread := hgroup.afterGroup_eq rfl rest
  obtain ⟨tail, rfl⟩ := List.head?_eq_some_iff.mp hgroup.head
  rw [h.afterPrimary_eq, afterReturns, hpart]
  exact hread

theorem CallHead.afterPrimary_single {s args before after ret rest : Text}
    (h : CallHead s args (before ++ ':' :: (after ++ ret))) (hbefore : Blanks before)
    (hafter : Blanks after) (hret : ∀ c ∈ ret.head?, isBlank c = false)
    (hopen : ret.head? ≠ some '(') (hread : afterSuffixed ret = .ok rest) :
    afterPrimary s = .ok rest := by
  have hpart := returnPart?_colon hbefore hafter hret
  rw [h.afterPrimary_eq, afterReturns, hpart]
  simp only [hopen, if_false]
  exact hread

theorem afterSuffixed_of_afterPrimary {s rest : Text}
    (h : afterPrimary s = .ok rest ∨ afterPrimary s = .ok (dropSuffixes rest)) :
    afterSuffixed s = .ok (dropSuffixes rest) := by
  rw [afterSuffixed]
  rcases h with heq | heq
  · rw [heq]
    rfl
  · rw [heq]
    exact congrArg Except.ok (dropSuffixes_dropSuffixes rest)

mutual

/-- A primary is read to its end, or with the suffixes behind it where these can as well
belong to its returns. -/
theorem Primary.afterPrimary_eq {s rest : Text} : Primary s rest → Stops rest →
    afterPrimary s = .ok rest ∨ afterPrimary s = .ok (dropSuffixes rest)
  | .callable h, hstop => h.afterPrimary_eq hstop
  | .round h, _ => Or.inl (afterPrimary_group h (Or.inl rfl) rest)
  | .curly h, _ => Or.inl (afterPrimary_group h (Or.inr rfl) rest)
  | .literal hquote hinside, _ => Or.inl (afterPrimary_literal hquote hinside rest)
  | .name h, hstop => Or.inl (h.afterPrimary_eq hstop)
  | .applied h hgroup, _ => Or.inl (h.afterPrimary_applied hgroup)

theorem Callable.afterPrimary_eq {s args returns rest : Text} :
    Callable s args returns rest → Stops rest →
      afterPrimary s = .ok rest ∨ afterPrimary s = .ok (dropSuffixes rest)
  | .bare h, hstop => Or.inl (h.afterPrimary_bare hstop)
  | .grouped h hbefore hafter hgroup, _ =>
      Or.inl (h.afterPrimary_grouped hbefore hafter hgroup)
  | .single h hbefore hafter hret hopen, hstop =>
      Or.inr (h.afterPrimary_single hbefore hafter hret.head_not_blank hopen
        (hret.afterSuffixed_eq hstop))

theorem Postfix.afterSuffixed_eq {s rest : Text} : Postfix s rest → Stops rest →
    afterSuffixed s = .ok (dropSuffixes rest)
  | .primary h, hstop => afterSuffixed_of_afterPrimary (h.afterPrimary_eq hstop)
  | .brackets h, _ => h.afterSuffixed_eq (.of_head rfl (by decide) (by decide) (by decide) _)
  | .mark h, _ => h.afterSuffixed_eq (.of_head rfl (by decide) (by decide) (by decide) _)

end

theorem Union.afterAlternatives_eq {s : Text} (h : Union s []) :
    (afterSuffixed s).bind afterAlternatives = .ok [] := by
  generalize hrest : ([] : Text) = rest at h
  induction h with
  | single h =>
      subst hrest
      rw [h.afterSuffixed_eq .nil]
      exact afterAlternatives_stop (by simp [skipBlanks, dropSuffixes])
  | more h hbefore hafter hnext ih =>
      rw [h.afterSuffixed_eq (.bar hbefore _), dropSuffixes_bar hbefore]
      change afterAlternatives _ = _
      rw [afterAlternatives_bar (skipBlanks_blanks_cons hbefore rfl _), skipBlanks_blanks hafter,
        skipBlanks_eq_self hnext.head_not_blank]
      exact ih hrest

/-- The scanner reads a whole text exactly if the text is a union. -/
theorem afterUnion_eq_ok_iff {s : Text} (hne : s ≠ []) :
    afterUnion s = .ok [] ↔ Union s [] := by
  constructor
  · exact union_of_afterUnion hne
  · intro h
    rw [afterUnion, if_neg (by simpa using hne)]
    exact h.afterAlternatives_eq

theorem Callable.afterPrimary_eq_nil {s args returns : Text}
    (h : Callable s args returns []) : afterPrimary s = .ok [] :=
  (h.afterPrimary_eq .nil).elim id id

end TypeExpr
end ApiManual
