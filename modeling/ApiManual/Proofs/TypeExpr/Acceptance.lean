import ApiManual.Proofs.TypeExpr.Derivation
import ApiManual.Proofs.TypeExpr.RoundTrip

/-!
# Which texts are types

A text is read as a type if the grammar derives it and, where it is one callable, if its
components are types in turn.
-/

namespace ApiManual
namespace TypeExpr

open Text

/-! ## Whitespace in front of a list -/

theorem map_trim_splitTop_whitespace {spaces : Text} (h : ∀ c ∈ spaces, isWhitespace c)
    (s : Text) : (splitTop ',' (spaces ++ s)).map trim = (splitTop ',' s).map trim := by
  have hbalanced : Balanced (some ',') spaces :=
    balanced_of_forall fun c hc => neutral_of_class (h c hc) rfl
  have hpass := cutAtTop_pass rfl rfl hbalanced s
  cases hcut : cutAtTop ',' 0 s with
  | none =>
      rw [hcut] at hpass
      rw [splitTop_of_none hpass, splitTop_of_none hcut, List.map_singleton, List.map_singleton,
        trim_whitespace_append h]
  | some parts =>
      obtain ⟨front, behind⟩ := parts
      rw [hcut] at hpass
      rw [splitTop_of_cut hpass, splitTop_of_cut hcut, List.map_cons, List.map_cons,
        trim_whitespace_append h]

theorem components_whitespace {spaces : Text} (h : ∀ c ∈ spaces, isWhitespace c) (s : Text) :
    components (spaces ++ s) = components s := by
  rw [components, components, map_trim_splitTop_whitespace h]

theorem components_nil : components [] = [] := by
  rw [components, splitTop_of_none rfl]
  rfl

/-! ## The parts of a callable -/

theorem isWhitespace_of_blanks {s : Text} (h : Blanks s) : ∀ c ∈ s, isWhitespace c :=
  fun c hc => isWhitespace_of_isBlank (h c hc)

theorem exists_head_dropWhile {p q : Char → Bool} {front : Text} {c : Char}
    (hfront : ∀ d ∈ front, q d) (hc : q c) (hp : p c = false) (rest : Text) :
    ∃ d tail, (front ++ c :: rest).dropWhile p = d :: tail ∧ q d := by
  induction front with
  | nil => exact ⟨c, rest, by simp [hp], hc⟩
  | cons a front ih =>
      rw [List.forall_mem_cons] at hfront
      rw [List.cons_append, List.dropWhile_cons]
      split
      · exact ih hfront.2
      · exact ⟨a, front ++ c :: rest, rfl, hfront.1⟩

theorem argumentList?_of_ne {c : Char} (h : c ≠ 'f') (s : Text) :
    argumentList? (c :: s) = none := by
  unfold argumentList?
  split
  · rename_i heq
    exact absurd (List.cons.inj heq).1 h
  · rename_i heq
    exact absurd (List.cons.inj heq).1 h
  · rfl

/-- Whitespace and round brackets. -/
def isMargin (c : Char) : Bool :=
  isWhitespace c || c = '('

/-- No type begins with whitespace in front of a round bracket. -/
theorem afterSuffixed_margin_ne {c : Char} {spaces rest : Text}
    (hc : isWhitespace c) (hspaces : ∀ d ∈ spaces, isWhitespace d) :
    afterSuffixed (c :: (spaces ++ '(' :: rest)) ≠ .ok [] := by
  intro hread
  rw [afterSuffixed, afterPrimary_simple (argumentList?_of_ne (ne_of_class hc rfl) _)] at hread
  obtain ⟨behind, hsimple, hdrop⟩ := map_dropSuffixes_eq_ok.mp hread
  by_cases hname : isNameChar c
  · -- The name ends within the margin, where no suffix and no group in angle brackets begins.
    have hmargin : ∀ d ∈ c :: spaces, isMargin d := by
      rw [List.forall_mem_cons]
      exact ⟨by simp [isMargin, hc], fun d hd => by simp [isMargin, hspaces d hd]⟩
    obtain ⟨d, tail, hrun, hd⟩ :=
      exists_head_dropWhile (p := isNameChar) hmargin (c := '(') rfl rfl rest
    rw [List.cons_append] at hrun
    have hangle : d ≠ '<' := ne_of_class hd rfl
    rw [afterSimple_of_isNameChar (by simp) (by simpa using hname),
      afterName_of_ne (by simpa [hrun] using hangle), hrun] at hsimple
    cases hsimple
    rw [dropSuffixes_eq_self] at hdrop
    · cases hdrop
    · intro tail' heq
      exact ne_of_class hd (d := '[') rfl (List.cons.inj heq).1
    · intro tail' heq
      exact ne_of_class hd (d := '?') rfl (List.cons.inj heq).1
  · have hround : c ≠ '(' := ne_of_class hc rfl
    have hcurly : c ≠ '\x7b' := ne_of_class hc rfl
    have hdouble : c ≠ '"' := ne_of_class hc rfl
    have hsingle : c ≠ '\'' := ne_of_class hc rfl
    simp [afterSimple, hround, hcurly, hdouble, hsingle, hname] at hsimple

theorem Postfix.trimStart_head?_ne {s : Text} (h : Postfix s []) (hopen : s.head? ≠ some '(') :
    (trimStart s).head? ≠ some '(' := by
  intro hhead
  obtain ⟨rest, hrest⟩ := List.head?_eq_some_iff.mp hhead
  have hs : s.takeWhile isWhitespace ++ '(' :: rest = s := by
    rw [← hrest]
    exact List.takeWhile_append_dropWhile
  have hspaces : ∀ d ∈ s.takeWhile isWhitespace, isWhitespace d :=
    fun _ hd => List.mem_takeWhile_imp hd
  have hread : afterSuffixed s = .ok [] := h.afterSuffixed_eq .nil
  cases hfront : s.takeWhile isWhitespace with
  | nil =>
      rw [hfront] at hs
      exact hopen (hs ▸ rfl)
  | cons c spaces =>
      rw [hfront, List.forall_mem_cons] at hspaces
      rw [← hs, hfront] at hread
      exact afterSuffixed_margin_ne hspaces.1 hspaces.2 hread

theorem ungroup_eq_self {s : Text} (h : s.head? ≠ some '(') : ungroup s = s := by
  unfold ungroup
  split
  · exact absurd rfl h
  · rfl

theorem Group.ungroup_eq {group : Text} (h : Group '(' group) :
    ungroup group = interior group := by
  have hcut := h.cutAtClose_eq rfl []
  rw [List.append_nil] at hcut
  obtain ⟨tail, rfl⟩ := List.head?_eq_some_iff.mp h.head
  rw [ungroup, hcut]
  rfl

/-- The components of the returns in what stands behind an argument list. -/
def returnComponents (behind : Text) : List Text :=
  match trimStart behind with
  | ':' :: ret => components (ungroup (trim ret))
  | _ => []

theorem trimStart_colon {before : Text} (h : Blanks before) (ret : Text) :
    trimStart (before ++ ':' :: ret) = ':' :: ret :=
  dropWhile_append_cons (isWhitespace_of_blanks h) rfl ret

theorem returnComponents_colon {before after : Text} (hbefore : Blanks before)
    (hafter : Blanks after) (ret : Text) :
    returnComponents (before ++ ':' :: (after ++ ret)) = components (ungroup (trim ret)) := by
  rw [returnComponents, trimStart_colon hbefore]
  simp only [trim_whitespace_append (isWhitespace_of_blanks hafter)]

theorem CallHead.suffix {s args rest : Text} (h : CallHead s args rest) : rest <:+ s := by
  obtain ⟨-, -⟩ := h
  rename_i gap group
  exact ⟨"fun".toList ++ (gap ++ group), by simp⟩

theorem CallHead.callable?_eq {s args behind : Text} (h : CallHead s args behind)
    (hread : afterPrimary s = .ok []) :
    callable? s = some ((components args).map argumentType, returnComponents behind) := by
  obtain ⟨group, hlist, hgroup, rfl⟩ := h.argumentList?_eq
  rw [callable?, hlist]
  simp only [hread]
  rw [callableParts, hgroup.cutAtClose_eq rfl]
  rfl

theorem CallHead.trimEnd_return {s args before after ret : Text}
    (h : CallHead s args (before ++ ':' :: (after ++ ret))) (htrim : Trimmed s) :
    trimEnd ret = ret := by
  have hbehind : ret <:+ before ++ ':' :: (after ++ ret) := ⟨before ++ ':' :: after, by simp⟩
  exact trimEnd_of_suffix htrim.trimEnd_eq (hbehind.trans h.suffix)

theorem Group.trim_eq {group : Text} (h : Group '(' group) (hend : trimEnd group = group) :
    trim group = group := by
  have hstart : trimStart group = group := by
    apply trimStart_eq_self_iff.mpr
    rw [h.head]
    intro c hc
    cases hc
    rfl
  rw [trim, hstart, hend]

theorem ungroup_trim_group {group : Text} (h : Group '(' group) (hend : trimEnd group = group) :
    ungroup (trim group) = interior group := by
  rw [h.trim_eq hend, h.ungroup_eq]

theorem trim_eq_trimStart {s : Text} (hend : trimEnd s = s) : trim s = trimStart s :=
  trimEnd_of_suffix hend (List.dropWhile_suffix isWhitespace)

theorem components_trim_single {ret : Text} (h : Postfix ret []) (hopen : ret.head? ≠ some '(')
    (hend : trimEnd ret = ret) : components (ungroup (trim ret)) = components ret := by
  have hspaces : ∀ d ∈ ret.takeWhile isWhitespace, isWhitespace d :=
    fun _ hd => List.mem_takeWhile_imp hd
  have hret : ret.takeWhile isWhitespace ++ trimStart ret = ret :=
    List.takeWhile_append_dropWhile
  calc
    components (ungroup (trim ret)) = components (trimStart ret) := by
      rw [trim_eq_trimStart hend, ungroup_eq_self (h.trimStart_head?_ne hopen)]
    _ = components (ret.takeWhile isWhitespace ++ trimStart ret) :=
      (components_whitespace hspaces _).symm
    _ = components ret := by rw [hret]

/-- A callable falls into the components of its argument list and of its returns. -/
theorem Callable.callable?_eq {s args returns : Text} (h : Callable s args returns [])
    (htrim : Trimmed s) :
    callable? s = some ((components args).map argumentType, components returns) := by
  have hread := h.afterPrimary_eq_nil
  cases h with
  | bare h =>
      rw [h.callable?_eq hread, components_nil]
      rfl
  | grouped h hbefore hafter hgroup =>
      rw [List.append_nil] at h
      rw [h.callable?_eq hread, returnComponents_colon hbefore hafter,
        ungroup_trim_group hgroup (h.trimEnd_return htrim)]
  | single h hbefore hafter hret hopen =>
      rw [List.append_nil] at h hret hopen
      rw [h.callable?_eq hread, returnComponents_colon hbefore hafter,
        components_trim_single hret hopen (h.trimEnd_return htrim)]

theorem exists_callable_of_callable? {s : Text} {parts : List Text × List Text}
    (h : callable? s = some parts) : ∃ args returns, Callable s args returns [] := by
  unfold callable? at h
  split at h
  · cases h
  · rename_i list hlist
    split at h
    · rename_i hread
      rcases derived_of_afterPrimary hread with ⟨hnone, -⟩ | hcallable
      · rw [hlist] at hnone
        cases hnone
      · exact hcallable
    · cases h

/-! ## Reading -/

/-- The text is read as a type. -/
def Accepted (s : Text) : Prop :=
  ∃ type, parse s = .ok type

theorem parse_of_not_union {s : Text} (hne : trim s ≠ []) (h : ¬ Union (trim s) []) :
    ∃ e, parse s = .error e := by
  have hread : afterUnion (trim s) ≠ .ok [] := mt (afterUnion_eq_ok_iff hne).mp h
  rw [parse_eq, if_neg (by simpa using hne)]
  split
  · exact ⟨_, rfl⟩
  · exact ⟨_, rfl⟩
  · rename_i hwhole
    exact absurd hwhole hread

theorem parse_of_union {s : Text} (hne : trim s ≠ []) (h : Union (trim s) [])
    (hcallable : ¬ ∃ args returns, Callable (trim s) args returns []) :
    parse s = .ok (simple (trim s)) := by
  have hread := (afterUnion_eq_ok_iff hne).mpr h
  have hnone : callable? (trim s) = none := by
    cases hparts : callable? (trim s) with
    | none => rfl
    | some parts => exact absurd (exists_callable_of_callable? hparts) hcallable
  exact parse_simple hne hread hnone

theorem parse_eq_ok_callable_iff {s args returns : Text} (h : Callable (trim s) args returns [])
    {type : LuaType} :
    parse s = .ok type ↔ ∃ argTypes returnTypes, type = .callable argTypes returnTypes ∧
      List.Forall₂ (fun part t => parse part = .ok t) ((components args).map argumentType)
        argTypes ∧
      List.Forall₂ (fun part t => parse part = .ok t) (components returns) returnTypes := by
  have hne : trim s ≠ [] := ne_nil_of_afterPrimary h.afterPrimary_eq_nil
  have hread := (afterUnion_eq_ok_iff hne).mpr (.single (.primary (.callable h)))
  rw [parse_eq, if_neg (by simpa using hne), hread]
  simp only [h.callable?_eq (trimmed_trim s)]
  constructor
  · intro hparse
    obtain ⟨argTypes, hargs, hparse⟩ := exists_of_bind_ok hparse
    obtain ⟨returnTypes, hreturns, hparse⟩ := exists_of_bind_ok hparse
    cases hparse
    exact ⟨argTypes, returnTypes, rfl, mapM_eq_ok_iff.mp hargs, mapM_eq_ok_iff.mp hreturns⟩
  · rintro ⟨argTypes, returnTypes, rfl, hargs, hreturns⟩
    rw [mapM_eq_ok_iff.mpr hargs, ok_bind, mapM_eq_ok_iff.mpr hreturns, ok_bind]
    rfl

theorem simple_ne_callable (s : Text) (args returns : List LuaType) :
    simple s ≠ .callable args returns := by
  unfold simple
  split
  · simp
  · split
    · simp
    · split
      · simp
      · split
        · simp
        · simp

theorem parse_eq_callable_iff {s : Text} {args returns : List LuaType} :
    parse s = .ok (.callable args returns) ↔
      ∃ argParts returnParts, callable? (trim s) = some (argParts, returnParts) ∧
        List.Forall₂ (fun part t => parse part = .ok t) argParts args ∧
        List.Forall₂ (fun part t => parse part = .ok t) returnParts returns := by
  constructor
  · intro h
    obtain ⟨-, -, hsimple | ⟨parts, _, _, hparts, hargs, hreturns, htype⟩⟩ := parse_cases h
    · exact absurd hsimple.symm (simple_ne_callable _ _ _)
    · cases htype
      exact ⟨parts.1, parts.2, hparts, mapM_eq_ok_iff.mp hargs, mapM_eq_ok_iff.mp hreturns⟩
  · rintro ⟨argParts, returnParts, hparts, hargs, hreturns⟩
    obtain ⟨list, rets, hcallable⟩ := exists_callable_of_callable? hparts
    have heq := hcallable.callable?_eq (trimmed_trim s)
    rw [hparts] at heq
    cases heq
    exact (parse_eq_ok_callable_iff hcallable).mpr ⟨args, returns, rfl, hargs, hreturns⟩

theorem accepted_callable_iff {s args returns : Text} (h : Callable (trim s) args returns []) :
    Accepted s ↔ (∀ part ∈ components args, Accepted (argumentType part)) ∧
      ∀ part ∈ components returns, Accepted part := by
  have hargs : (∃ types, List.Forall₂ (fun part t => parse part = .ok t)
      ((components args).map argumentType) types) ↔
        ∀ part ∈ (components args).map argumentType, Accepted part := exists_forall₂_iff
  have hreturns : (∃ types, List.Forall₂ (fun part t => parse part = .ok t)
      (components returns) types) ↔ ∀ part ∈ components returns, Accepted part :=
    exists_forall₂_iff
  rw [List.forall_mem_map] at hargs
  constructor
  · rintro ⟨type, hparse⟩
    obtain ⟨argTypes, returnTypes, -, h₁, h₂⟩ := (parse_eq_ok_callable_iff h).mp hparse
    exact ⟨hargs.mp ⟨argTypes, h₁⟩, hreturns.mp ⟨returnTypes, h₂⟩⟩
  · rintro ⟨h₁, h₂⟩
    obtain ⟨argTypes, hargTypes⟩ := hargs.mpr h₁
    obtain ⟨returnTypes, hreturnTypes⟩ := hreturns.mpr h₂
    exact ⟨_, (parse_eq_ok_callable_iff h).mpr ⟨_, _, rfl, hargTypes, hreturnTypes⟩⟩

/-- Exactly the texts of the grammar are read, and those that are one callable if all
components of the callable are read. -/
theorem parse_accepts_grammar (s : Text) (hne : trim s ≠ []) :
    (¬ Union (trim s) [] → ∃ e, parse s = .error e) ∧
      (Union (trim s) [] → (¬ ∃ args returns, Callable (trim s) args returns []) →
        parse s = .ok (simple (trim s))) ∧
      ∀ args returns, Callable (trim s) args returns [] →
        (Accepted s ↔ (∀ part ∈ components args, Accepted (argumentType part)) ∧
          ∀ part ∈ components returns, Accepted part) :=
  ⟨parse_of_not_union hne, parse_of_union hne, fun _ _ h => accepted_callable_iff h⟩

/-- A callable with a union among its arguments. -/
def observerText : Text :=
  " fun (cb: fun()|nil, \x7ba|b\x7d) : string[]".toList

theorem accepted_observerText :
    trim observerText ≠ [] ∧ ∃ args returns, Callable (trim observerText) args returns [] ∧
      (components args).map argumentType = ["fun()|nil".toList, "\x7ba|b\x7d".toList] ∧
        components returns = ["string[]".toList] ∧ Accepted observerText := by
  have hne : trim observerText ≠ [] := by decide
  have hparts : callable? (trim observerText) =
      some (["fun()|nil".toList, "\x7ba|b\x7d".toList], ["string[]".toList]) := by
    decide +kernel
  have hsimple : ∀ part ∈ ["fun()|nil".toList, "\x7ba|b\x7d".toList, "string[]".toList],
      trim part ≠ [] ∧ afterUnion (trim part) = .ok [] ∧ callable? (trim part) = none := by
    decide +kernel
  have haccepted : ∀ part ∈ ["fun()|nil".toList, "\x7ba|b\x7d".toList, "string[]".toList],
      Accepted part := by
    intro part hpart
    obtain ⟨hpartNe, hread, hnone⟩ := hsimple part hpart
    exact ⟨_, parse_simple hpartNe hread hnone⟩
  simp only [List.forall_mem_cons] at haccepted
  obtain ⟨args, returns, hcallable⟩ := exists_callable_of_callable? hparts
  have hcomponents := hcallable.callable?_eq (trimmed_trim _)
  rw [hparts, Option.some.injEq, Prod.mk.injEq] at hcomponents
  obtain ⟨hargs, hreturns⟩ := hcomponents
  refine ⟨hne, args, returns, hcallable, hargs.symm, hreturns.symm, ?_⟩
  refine ((parse_accepts_grammar observerText hne).2.2 args returns hcallable).mpr ⟨?_, ?_⟩
  · rw [← List.forall_mem_map (P := Accepted), ← hargs]
    simpa using ⟨haccepted.1, haccepted.2.1⟩
  · rw [← hreturns]
    simpa using haccepted.2.2

end TypeExpr
end ApiManual
