import ApiManual.Proofs.TypeExpr.Acceptance

/-!
# Nesting of brackets

The brackets of a text nest if each closing one closes the innermost bracket that is open.
In a type that is read they do, but a bracket of any kind may close any other one, and a
quote within brackets begins no string literal.
-/

namespace ApiManual
namespace TypeExpr

open Text

def isQuote (c : Char) : Bool :=
  c = '"' || c = '\''

/-- What a text leaves open: brackets, the innermost first, and a string literal. -/
structure Opened where
  brackets : List Char := []
  quote : Option Char := none
  deriving DecidableEq

/-- Which closing bracket fits an opening one, and whether a quote begins a string literal
where brackets are open. -/
structure Matching where
  fits : Char → Char → Bool
  literalsInside : Bool

/-- Brackets are told apart by kind, and the brackets in string literals do not count. -/
def byKind : Matching where
  fits opening c := [('(', ')'), ('<', '>'), ('\x7b', '\x7d'), ('[', ']')].contains (opening, c)
  literalsInside := true

/-- Brackets are not told apart, and within brackets quotes do not count. -/
def anyKind : Matching where
  fits _ _ := true
  literalsInside := false

namespace Opened

/-- What is open behind a character, unless it closes a bracket that it does not fit. -/
def step (rule : Matching) (o : Opened) (c : Char) : Option Opened :=
  match o.quote with
  | some quote => some (if c = quote then { o with quote := none } else o)
  | none =>
    if isQuote c && (rule.literalsInside || o.brackets.isEmpty) then
      some { o with quote := some c }
    else if isOpening c then
      some { o with brackets := c :: o.brackets }
    else if isClosing c then
      match o.brackets with
      | [] => none
      | opening :: rest => if rule.fits opening c then some { o with brackets := rest } else none
    else
      some o

def run (rule : Matching) (o : Opened) (s : Text) : Option Opened :=
  s.foldlM (step rule) o

theorem run_cons (rule : Matching) (o : Opened) (c : Char) (s : Text) :
    run rule o (c :: s) = (step rule o c).bind fun o' => run rule o' s :=
  List.foldlM_cons

theorem run_append (rule : Matching) (o : Opened) (s t : Text) :
    run rule o (s ++ t) = (run rule o s).bind fun o' => run rule o' t :=
  List.foldlM_append

end Opened

/-- A text that closes all that it opens. -/
def Nested (rule : Matching) (s : Text) : Prop :=
  Opened.run rule {} s = some {}

instance (rule : Matching) (s : Text) : Decidable (Nested rule s) :=
  inferInstanceAs (Decidable (Opened.run rule {} s = some {}))

namespace Opened

/-! ## Single characters -/

def Quiet (c : Char) : Prop :=
  isQuote c = false ∧ isOpening c = false ∧ isClosing c = false

theorem quiet_of_class {p : Char → Bool} {c : Char} (hc : p c)
    (hp : ['"', '\'', '(', '<', '\x7b', '[', ')', '>', '\x7d', ']'].any p = false) : Quiet c := by
  have hne : ∀ d ∈ ['"', '\'', '(', '<', '\x7b', '[', ')', '>', '\x7d', ']'], c ≠ d :=
    fun d hd => ne_of_class hc (by simpa using List.any_eq_false.mp hp d hd)
  refine ⟨?_, ?_, ?_⟩
  · simp [isQuote, hne]
  · simp [isOpening, hne]
  · simp [isClosing, hne]

theorem step_quiet (rule : Matching) {c : Char} (hc : Quiet c) (brackets : List Char) :
    step rule { brackets } c = some { brackets } := by
  obtain ⟨hquote, hopen, hclose⟩ := hc
  simp [step, hquote, hopen, hclose]

theorem run_quiet (rule : Matching) {s : Text} (hs : ∀ c ∈ s, Quiet c) :
    run rule {} s = some {} := by
  induction s with
  | nil => rfl
  | cons c s ih =>
      rw [List.forall_mem_cons] at hs
      rw [run_cons, step_quiet rule hs.1 [], Option.bind_some]
      exact ih hs.2

theorem step_opening (brackets : List Char) {c : Char} (hc : isOpening c) :
    step anyKind { brackets } c = some { brackets := c :: brackets } := by
  have hdouble : c ≠ '"' := ne_of_class hc rfl
  have hsingle : c ≠ '\'' := ne_of_class hc rfl
  simp [step, isQuote, hdouble, hsingle, hc]

theorem step_closing (opening : Char) (brackets : List Char) {c : Char}
    (hopen : ¬ isOpening c) (hclose : isClosing c) :
    step anyKind { brackets := opening :: brackets } c = some { brackets } := by
  simp [step, anyKind, hopen, hclose]

theorem step_inside (opening : Char) (brackets : List Char) {c : Char}
    (hopen : ¬ isOpening c) (hclose : ¬ isClosing c) :
    step anyKind { brackets := opening :: brackets } c =
      some { brackets := opening :: brackets } := by
  simp [step, anyKind, hopen, hclose]

/-! ## Groups and literals -/

/-- Looking for the end of a group closes all brackets that are open. -/
theorem run_of_cutAtClose {opening : Char} {brackets : List Char} {s inside behind : Text}
    (h : cutAtClose (opening :: brackets).length s = some (inside, behind)) :
    run anyKind { brackets := opening :: brackets } s = run anyKind {} behind := by
  -- the stack is as high as the count of the scanner, which stops when both are empty
  induction s generalizing opening brackets inside with
  | nil => simp [cutAtClose] at h
  | cons c s ih =>
      rw [cutAtClose] at h
      rw [run_cons]
      by_cases hopen : isOpening c
      · rw [depthAfter_opening hopen, if_neg (by simp)] at h
        obtain ⟨⟨inner, rest⟩, hcut, heq⟩ := Option.map_eq_some_iff.mp h
        cases heq
        rw [step_opening _ hopen]
        exact ih hcut
      · by_cases hclose : isClosing c
        · rw [depthAfter_closing hopen hclose, List.length_cons, Nat.add_sub_cancel] at h
          rw [step_closing opening brackets hopen hclose]
          cases brackets with
          | nil =>
              rw [if_pos (by simp [hclose])] at h
              cases h
              rfl
          | cons outer brackets =>
              rw [if_neg (by simp)] at h
              obtain ⟨⟨inner, rest⟩, hcut, heq⟩ := Option.map_eq_some_iff.mp h
              cases heq
              exact ih hcut
        · rw [depthAfter_other hopen hclose, if_neg (by simp)] at h
          obtain ⟨⟨inner, rest⟩, hcut, heq⟩ := Option.map_eq_some_iff.mp h
          cases heq
          rw [step_inside opening brackets hopen hclose]
          exact ih hcut

theorem run_of_afterGroup {c : Char} {s rest : Text} (hopen : isOpening c)
    (h : afterGroup (c :: s) = .ok rest) : run anyKind {} (c :: s) = run anyKind {} rest := by
  unfold afterGroup at h
  split at h
  · rename_i inside behind hcut
    cases h
    rw [cutAtClose, depthAfter_opening hopen, if_neg (by simp)] at hcut
    obtain ⟨⟨inner, rest⟩, hcut, heq⟩ := Option.map_eq_some_iff.mp hcut
    cases heq
    rw [run_cons, step_opening [] hopen]
    exact run_of_cutAtClose hcut
  · cases h

theorem run_literal {quote : Char} {s rest : Text} (h : afterLiteral quote s = .ok rest) :
    run anyKind { quote := some quote } s = run anyKind {} rest := by
  induction s with
  | nil => cases h
  | cons c s ih =>
      rw [run_cons]
      by_cases hc : c = quote
      · have hrest : s = rest := by simpa [afterLiteral, hc] using h
        simp [step, hc, hrest]
      · have hs : afterLiteral quote s = .ok rest := by simpa [afterLiteral, hc] using h
        simpa [step, hc] using ih hs

theorem run_of_afterLiteral {quote : Char} (hquote : quote = '"' ∨ quote = '\'')
    {s rest : Text} (h : afterLiteral quote s = .ok rest) :
    run anyKind {} (quote :: s) = run anyKind {} rest := by
  have hstep : step anyKind {} quote = some { quote := some quote } := by
    rcases hquote with rfl | rfl <;> rfl
  rw [run_cons, hstep]
  exact run_literal h

/-! ## Whole types -/

theorem passing_run : Passing fun s rest => run anyKind {} s = run anyKind {} rest where
  refl := fun _ => rfl
  trans := Eq.trans
  plain := by
    intro c rest hc
    rw [run_cons, step_quiet anyKind (quiet_of_class hc rfl)]
    rfl
  brackets := fun _ => rfl
  group := run_of_afterGroup
  literal := fun hquote h => run_of_afterLiteral hquote h

end Opened

theorem nested_of_afterUnion {s : Text} (h : afterUnion s = .ok []) : Nested anyKind s :=
  Opened.passing_run.afterUnion h

theorem nested_trim {rule : Matching} {s : Text} (h : Nested rule (trim s)) : Nested rule s := by
  have hquiet : ∀ t : Text, (∀ c ∈ t, isWhitespace c) → Opened.run rule {} t = some {} :=
    fun t ht => Opened.run_quiet rule fun c hc => Opened.quiet_of_class (ht c hc) rfl
  have hfront : ∀ c ∈ s.takeWhile isWhitespace, isWhitespace c :=
    fun _ hc => List.mem_takeWhile_imp hc
  obtain ⟨spaces, hend, hspaces⟩ := exists_trimEnd_append (trimStart s)
  have hs : s = s.takeWhile isWhitespace ++ (trim s ++ spaces) := by
    rw [trim, ← hend]
    exact List.takeWhile_append_dropWhile.symm
  have htrim : Opened.run rule {} (trim s) = some {} := h
  rw [Nested, hs, Opened.run_append, hquiet _ hfront, Option.bind_some, Opened.run_append, htrim,
    Option.bind_some, hquiet _ hspaces]

/-- In every type that is read the brackets nest: each closing bracket closes the innermost
open one, of whatever kind, and none stays open.  Only the brackets in string literals that
stand outside all brackets do not count. -/
theorem nested_of_parse {s : Text} {type : LuaType} (h : parse s = .ok type) :
    Nested anyKind s := by
  obtain ⟨-, hunion, -⟩ := parse_cases h
  exact nested_trim (nested_of_afterUnion hunion)

theorem nested_tableOrBracket :
    let s := "table<string, (a)>|\"]\"".toList
    parse s = .ok (.named s) ∧ Nested anyKind s := by
  intro s
  have htrim : trim s = s := by decide
  have hread : afterUnion (trim s) = .ok [] ∧ callable? (trim s) = none := by decide +kernel
  have hparse : parse s = .ok (.named s) := by
    rw [parse_simple (by decide) hread.1 hread.2, htrim, simple_eq_named (by decide)]
  exact ⟨hparse, nested_of_parse hparse⟩

/-- The argument list of a callable ends at a bracket of another kind. -/
theorem not_nested_mixedCallable :
    parse "fun(a: number>".toList = .ok (.callable [.named "number".toList] []) ∧
      ¬ Nested byKind "fun(a: number>".toList := by
  have hparts : callable? (trim "fun(a: number>".toList) = some (["number".toList], []) := by
    decide +kernel
  have hread : afterUnion (trim "number".toList) = .ok [] ∧
      callable? (trim "number".toList) = none := by
    decide +kernel
  have hnumber : parse "number".toList = .ok (.named "number".toList) :=
    parse_simple (by decide) hread.1 hread.2
  exact ⟨parse_eq_callable_iff.mpr ⟨_, _, hparts, .cons hnumber .nil, .nil⟩, by decide⟩

end TypeExpr
end ApiManual
