import ApiManual.Proofs.Text.Words
import ApiManual.Proofs.TypeExpr.Acceptance

/-!
# The parts of a callable, cut and read

The scanner finds where a callable ends, and its parts are then cut out of the same text by
looking for its brackets once more.  A reader that checks every one of these cuts is set
beside the reading of types here.  It cuts where the scanner has ended the parts, so a
callable is refused for what is wrong with one of its parts and for nothing else.
-/

namespace ApiManual
namespace TypeExpr

open Text

/-! ## Reading with checks -/

inductive CallableError
  /-- No argument list is opened. -/
  | unopened
  /-- A bracket that is looked for is not there. -/
  | unbalanced
  | part (e : TypeError)

/-- The inside of the group in front of a text, with its opening bracket, and what is
behind the group. -/
def closedGroup (s : Text) : Except CallableError (Text × Text) :=
  match cutAtClose 0 s with
  | some parts => .ok parts
  | none => .error .unbalanced

/-- The list of returns, without the round brackets where they are around all of it. -/
def returnList (ret : Text) : Except CallableError Text :=
  if ret.head? = some '(' then do
    let (inside, behind) ← closedGroup ret
    return if behind.isEmpty then inside.drop 1 else ret
  else
    .ok ret

def returnParts (behind : Text) : Except CallableError (List Text) :=
  match trimStart behind with
  | ':' :: ret => (returnList (trim ret)).map components
  | _ => .ok []

def readParts (read : Text → Except TypeError LuaType) (parts : List Text) :
    Except CallableError (List LuaType) :=
  (parts.mapM read).mapError .part

/-- Cuts a callable at its brackets and reads its parts with `read`. -/
def readCallable (read : Text → Except TypeError LuaType) (s : Text) :
    Except CallableError LuaType :=
  match s.dropWhile (· ≠ '(') with
  | [] => .error .unopened
  | c :: rest => do
    let (inside, behind) ← closedGroup (c :: rest)
    let args ← readParts read ((components (inside.drop 1)).map argumentType)
    let returns ← returnParts behind
    let returns ← readParts read returns
    return .callable args returns

/-! ## Where the text is cut -/

theorem dropWhile_of_argumentList? {s list : Text} (h : argumentList? s = some list) :
    s.dropWhile (· ≠ '(') = list := by
  unfold argumentList? at h
  split at h
  · cases h
    rfl
  · cases h
    rfl
  · cases h

theorem Group.closedGroup_eq {group : Text} (h : Group '(' group) (rest : Text) :
    closedGroup (group ++ rest) = .ok ('(' :: interior group, rest) := by
  rw [closedGroup, h.cutAtClose_eq rfl]

/-- A callable is cut where the scanner has ended its parts: its argument list at the same
bracket, behind it nothing or a colon with returns, and returns that begin with a round
bracket at their last character. -/
structure CutAsScanned (s inside behind : Text) : Prop where
  arguments : ∃ list, argumentList? s = some list ∧ s.dropWhile (· ≠ '(') = list ∧
    closedGroup list = .ok (inside, behind) ∧ afterGroup list = .ok behind
  returns : behind = [] ∨ ∃ ret, trimStart behind = ':' :: ret ∧ trim ret ≠ []
  brackets : ∀ ret, trimStart behind = ':' :: ret → (trim ret).head? = some '(' →
    ∃ list, closedGroup (trim ret) = .ok (list, [])

theorem CallHead.closedGroup_eq {s args behind : Text} (h : CallHead s args behind) :
    ∃ list, argumentList? s = some list ∧ s.dropWhile (· ≠ '(') = list ∧
      closedGroup list = .ok ('(' :: args, behind) ∧ afterGroup list = .ok behind := by
  obtain ⟨group, hlist, hgroup, hargs⟩ := h.argumentList?_eq
  refine ⟨group ++ behind, hlist, dropWhile_of_argumentList? hlist, ?_, hgroup.afterGroup_eq rfl _⟩
  rw [hargs]
  exact hgroup.closedGroup_eq behind

theorem trim_ne_nil_of_trimEnd {s : Text} (hne : s ≠ []) (hend : trimEnd s = s) :
    trim s ≠ [] := by
  intro hnone
  have hlast := trimEnd_eq_self_iff.mp hend _ (List.getLast?_eq_some_getLast hne)
  have hspace := List.all_eq_true.mp (trim_eq_nil_iff.mp hnone) _ (List.getLast_mem hne)
  rw [hlast] at hspace
  cases hspace

theorem Postfix.ne_nil {ret : Text} (h : Postfix ret []) : ret ≠ [] :=
  ne_nil_of_afterSuffixed (h.afterSuffixed_eq .nil)

theorem Callable.cutAsScanned {s args returns : Text} (h : Callable s args returns [])
    (htrim : Trimmed s) : ∃ behind, CallHead s args behind ∧
      CutAsScanned s ('(' :: args) behind := by
  cases h with
  | bare hhead =>
      refine ⟨[], hhead, hhead.closedGroup_eq, .inl rfl, ?_⟩
      intro ret hret
      cases hret
  | @grouped _ _ before after group _ hhead hbefore hafter hgroup =>
      rw [List.append_nil] at hhead
      have htrimGroup := hgroup.trim_eq (hhead.trimEnd_return htrim)
      have hstart := trimStart_colon hbefore (after ++ group)
      have hret : trim (after ++ group) = group := by
        rw [trim_whitespace_append (isWhitespace_of_blanks hafter), htrimGroup]
      refine ⟨_, hhead, hhead.closedGroup_eq, .inr ⟨_, hstart, ?_⟩, ?_⟩
      · intro hnone
        rw [hret] at hnone
        have hfirst := hgroup.head
        rw [hnone] at hfirst
        cases hfirst
      · intro ret hcolon _
        cases hstart.symm.trans hcolon
        have hclosed := hgroup.closedGroup_eq []
        rw [List.append_nil] at hclosed
        rw [hret]
        exact ⟨_, hclosed⟩
  | @single _ _ before after ret _ hhead hbefore hafter hsuffixed hopen =>
      rw [List.append_nil] at hhead hsuffixed hopen
      have hend := hhead.trimEnd_return htrim
      have hstart := trimStart_colon hbefore (after ++ returns)
      have hret : trim (after ++ returns) = trim returns :=
        trim_whitespace_append (isWhitespace_of_blanks hafter) returns
      refine ⟨_, hhead, hhead.closedGroup_eq, .inr ⟨_, hstart, ?_⟩, ?_⟩
      · rw [hret]
        exact trim_ne_nil_of_trimEnd hsuffixed.ne_nil hend
      · intro ret hcolon hround
        cases hstart.symm.trans hcolon
        rw [hret, trim_eq_trimStart hend] at hround
        exact absurd hround (hsuffixed.trimStart_head?_ne hopen)

/-! ## What is read -/

theorem returnList_eq {ret : Text}
    (h : ret.head? = some '(' → ∃ list, closedGroup ret = .ok (list, [])) :
    returnList ret = .ok (ungroup ret) := by
  unfold returnList
  split
  · rename_i hround
    obtain ⟨list, hclosed⟩ := h hround
    obtain ⟨tail, rfl⟩ := List.head?_eq_some_iff.mp hround
    have hcut : cutAtClose 0 ('(' :: tail) = some (list, []) := by
      unfold closedGroup at hclosed
      split at hclosed
      · rename_i hcut
        cases hclosed
        exact hcut
      · cases hclosed
    rw [hclosed, ungroup, hcut]
    rfl
  · rename_i hround
    rw [ungroup_eq_self hround]

theorem CutAsScanned.returnParts_eq {s inside behind : Text} (h : CutAsScanned s inside behind) :
    returnParts behind = .ok (returnComponents behind) := by
  unfold returnParts
  split
  · rename_i ret hstart
    rw [returnList_eq (h.brackets ret hstart), returnComponents, hstart]
    rfl
  · rename_i hother
    have hnone : returnComponents behind = [] := by
      unfold returnComponents
      split
      · rename_i ret hstart
        exact absurd hstart (hother ret)
      · rfl
    rw [hnone]

theorem exists_cut {s : Text} {args returns : List Text} (htrim : Trimmed s)
    (h : callable? s = some (args, returns)) : ∃ inside behind, CutAsScanned s inside behind ∧
      args = (components (inside.drop 1)).map argumentType ∧
        returns = returnComponents behind := by
  obtain ⟨list, rets, hcallable⟩ := exists_callable_of_callable? h
  obtain ⟨behind, hhead, hcut⟩ := hcallable.cutAsScanned htrim
  have hparts := hhead.callable?_eq hcallable.afterPrimary_eq_nil
  rw [h, Option.some.injEq, Prod.mk.injEq] at hparts
  exact ⟨_, behind, hcut, hparts.1, hparts.2⟩

/-- All checks on the way pass, and the parts are those of `callable?`. -/
theorem readCallable_eq (read : Text → Except TypeError LuaType) {s : Text}
    {args returns : List Text} (htrim : Trimmed s) (h : callable? s = some (args, returns)) :
    readCallable read s = do
      let args ← readParts read args
      let returns ← readParts read returns
      return .callable args returns := by
  obtain ⟨inside, behind, hcut, hargs, hreturns⟩ := exists_cut htrim h
  obtain ⟨list, hlist, hdrop, hclosed, -⟩ := hcut.arguments
  rw [readCallable, hdrop]
  cases list with
  | nil => cases hclosed
  | cons c rest =>
      simp only [hclosed, hcut.returnParts_eq, ok_bind]
      rw [hargs, hreturns]

theorem exists_of_readParts_error {read : Text → Except TypeError LuaType} {parts : List Text}
    {e : CallableError} (h : readParts read parts = .error e) :
    ∃ part ∈ parts, ∃ e', read part = .error e' ∧ e = .part e' := by
  obtain ⟨e', hread, he⟩ := exists_of_mapError_error h
  obtain ⟨part, hmem, hpart⟩ := exists_of_mapM_error hread
  exact ⟨part, hmem, e', hpart, he.symm⟩

theorem exists_of_readCallable_error {read : Text → Except TypeError LuaType} {s : Text}
    {args returns : List Text} (htrim : Trimmed s) (h : callable? s = some (args, returns))
    {e : CallableError} (hread : readCallable read s = .error e) :
    ∃ part, (part ∈ args ∨ part ∈ returns) ∧ part.length < s.length ∧
      ∃ e', read part = .error e' ∧ e = .part e' := by
  rw [readCallable_eq read htrim h] at hread
  rcases error_cases_of_bind hread with hargs | ⟨_, -, hread⟩
  · obtain ⟨part, hmem, hpart⟩ := exists_of_readParts_error hargs
    exact ⟨part, .inl hmem, length_lt_of_callable? h (.inl hmem), hpart⟩
  · rcases error_cases_of_bind hread with hreturns | ⟨_, -, hread⟩
    · obtain ⟨part, hmem, hpart⟩ := exists_of_readParts_error hreturns
      exact ⟨part, .inr hmem, length_lt_of_callable? h (.inr hmem), hpart⟩
    · cases hread

/-- Types are read as by the reader that checks all cuts. -/
theorem parse_eq_readCallable {s : Text} {args returns : List Text} (htrim : Trimmed s)
    (h : callable? s = some (args, returns)) :
    (parse s).mapError .part = readCallable parse s := by
  have hs : trim s = s := htrim
  obtain ⟨list, rets, hcallable⟩ := exists_callable_of_callable? h
  have hread := hcallable.afterPrimary_eq_nil
  rw [readCallable_eq parse htrim h, parse_eq, hs,
    if_neg (by simpa using ne_nil_of_afterPrimary hread), afterUnion_of_afterPrimary hread]
  simp only [h, readParts]
  cases args.mapM parse with
  | error e => rfl
  | ok argTypes =>
      cases returns.mapM parse with
      | error e => rfl
      | ok returnTypes => rfl

theorem exists_part_of_parse_error {s : Text} {args returns : List Text} (htrim : Trimmed s)
    (h : callable? s = some (args, returns)) {e : TypeError} (hparse : parse s = .error e) :
    ∃ part, (part ∈ args ∨ part ∈ returns) ∧ part.length < s.length ∧ parse part = .error e := by
  have hread : readCallable parse s = .error (.part e) := by
    rw [← parse_eq_readCallable htrim h, hparse]
    rfl
  obtain ⟨part, hmem, hlength, e', hpart, he⟩ := exists_of_readCallable_error htrim h hread
  cases he
  exact ⟨part, hmem, hlength, hpart⟩

/-- A callable is cut where the scanner has ended its parts.  So none of the checks on the
way fails, whatever reads the parts, and a callable that is no type has a shorter part that
is refused in the same way. -/
theorem callable_cut_as_scanned {s : Text} {args returns : List Text} (htrim : Trimmed s)
    (h : callable? s = some (args, returns)) :
    (∃ inside behind, CutAsScanned s inside behind) ∧
      (∀ read e, readCallable read s = .error e →
        ∃ part, (part ∈ args ∨ part ∈ returns) ∧ part.length < s.length ∧
          ∃ e', read part = .error e' ∧ e = .part e') ∧
      (parse s).mapError .part = readCallable parse s ∧
      ∀ e, parse s = .error e →
        ∃ part, (part ∈ args ∨ part ∈ returns) ∧ part.length < s.length ∧
          parse part = .error e := by
  obtain ⟨inside, behind, hcut, -, -⟩ := exists_cut htrim h
  refine ⟨⟨inside, behind, hcut⟩, ?_, parse_eq_readCallable htrim h, ?_⟩
  · intro read e hread
    exact exists_of_readCallable_error htrim h hread
  · intro e hparse
    exact exists_part_of_parse_error htrim h hparse

/-- A callable with an argument that is no type, two levels down. -/
def nestedText : Text :=
  "fun (cb: fun(x: a b), any) : (string)".toList

theorem callable_cut_as_scanned_nested :
    let args := ["fun(x: a b)".toList, "any".toList]
    let returns := ["string".toList]
    Trimmed nestedText ∧ callable? nestedText = some (args, returns) ∧
      (∃ inside behind, CutAsScanned nestedText inside behind) ∧
      (parse nestedText).mapError .part = readCallable parse nestedText ∧
      parse nestedText = .error (.unexpected " b".toList) ∧
      ∃ part, (part ∈ args ∨ part ∈ returns) ∧ part.length < nestedText.length ∧
        parse part = .error (.unexpected " b".toList) := by
  intro args returns
  have htrim : Trimmed nestedText := by decide
  have hparts : callable? nestedText = some (args, returns) := by decide +kernel
  have hmap : (parse nestedText).map (fun _ => ()) = .error (.unexpected " b".toList) := by
    decide +kernel
  have hparse := of_map_error hmap
  obtain ⟨hcut, -, heq, hpart⟩ := callable_cut_as_scanned htrim hparts
  exact ⟨htrim, hparts, hcut, heq, hparse, hpart _ hparse⟩

end TypeExpr
end ApiManual
