import ApiManual.Glob.Pattern
import Mathlib.Data.List.Infix
import Mathlib.Tactic.Common

/-!
# Patterns that stand for themselves

A text is escaped so that it is a pattern for itself only, and a text without special
characters is such a pattern as it stands.
-/

namespace ApiManual
namespace Glob

def isSpecialChar (c : Char) : Bool :=
  c = '?' || c = '*' || c = '[' || c = ']'

/-- The token that an escaped character becomes. -/
def escapedToken (c : Char) : Token :=
  if isSpecialChar c then .oneOf [(c, c)] else .char c

theorem escape_nil : escape [] = [] := rfl

theorem escape_cons (c : Char) (s : Text) :
    escape (c :: s) = (if isSpecialChar c then ['[', c, ']'] else [c]) ++ escape s := rfl

theorem escape_append (s t : Text) : escape (s ++ t) = escape s ++ escape t := by
  simp [escape]

theorem tokens?_cons {c : Char} (hc : isSpecialChar c = false) (s : Text) :
    tokens? (c :: s) = (tokens? s).map (.char c :: ·) := by
  simp only [isSpecialChar, Bool.or_eq_false_iff, decide_eq_false_iff_not] at hc
  rw [tokens?] <;> simp_all

theorem tokens?_bracketed {c : Char} (hc : isSpecialChar c) (s : Text) :
    tokens? ('[' :: c :: ']' :: s) = (tokens? s).map (.oneOf [(c, c)] :: ·) := by
  have hlist : listToken? (c :: ']' :: s) = some (.oneOf [(c, c)], s) := by
    have hne : c ≠ '!' := by
      rintro rfl
      cases hc
    unfold listToken?
    split
    · simp_all
    · simp [cutList?, charRanges]
  rw [tokens?]
  split
  · rename_i token behind heq
    rw [hlist] at heq
    cases heq
    rfl
  · rename_i heq
    rw [hlist] at heq
    cases heq

theorem tokens?_escape (s : Text) : tokens? (escape s) = some (s.map escapedToken) := by
  induction s with
  | nil => rw [escape_nil, tokens?]; rfl
  | cons c s ih =>
      rw [escape_cons, List.map_cons, escapedToken]
      by_cases hc : isSpecialChar c
      · rw [if_pos hc, if_pos hc]
        exact (tokens?_bracketed hc (escape s)).trans (by rw [ih]; rfl)
      · rw [if_neg hc, if_neg hc]
        exact (tokens?_cons (by simpa using hc) (escape s)).trans (by rw [ih]; rfl)

theorem escapedToken_accepts (c d : Char) : (escapedToken c).accepts d = decide (d = c) := by
  unfold escapedToken
  split
  · simp only [Token.accepts, inRanges, List.any_cons, List.any_nil, Bool.or_false]
    rw [← Bool.decide_and, decide_eq_decide]
    constructor
    · rintro ⟨hle, hge⟩
      exact Char.le_antisymm hge hle
    · rintro rfl
      exact ⟨Char.le_refl _, Char.le_refl _⟩
  · rfl

theorem escapedToken_ne_anyText (c : Char) : escapedToken c ≠ .anyText := by
  unfold escapedToken
  split <;> simp

theorem accepts_cons_nil {token : Token} (h : token ≠ .anyText) (tokens : List Token) :
    accepts (token :: tokens) [] = false := by
  cases token with
  | anyText => exact absurd rfl h
  | _ => rfl

theorem accepts_cons_cons {token : Token} (h : token ≠ .anyText) (tokens : List Token) (c : Char)
    (s : Text) : accepts (token :: tokens) (c :: s) = (token.accepts c && accepts tokens s) := by
  cases token with
  | anyText => exact absurd rfl h
  | _ => rfl

theorem accepts_escapedTokens (s name : Text) :
    accepts (s.map escapedToken) name = decide (name = s) := by
  induction s generalizing name with
  | nil => cases name <;> rfl
  | cons c s ih =>
      rw [List.map_cons]
      cases name with
      | nil => exact accepts_cons_nil (escapedToken_ne_anyText c) _
      | cons d name =>
          rw [accepts_cons_cons (escapedToken_ne_anyText c), escapedToken_accepts, ih,
            ← Bool.decide_and, decide_eq_decide, List.cons.injEq]

theorem mem_suffixes_iff {s t : Text} : t ∈ suffixes s ↔ t <:+ s := by
  induction s with
  | nil => simp [suffixes]
  | cons c s ih => rw [suffixes, List.mem_cons, ih, List.suffix_cons_iff]

/-- A star in front of a text accepts the names that end in the text. -/
theorem accepts_anyText_iff (s name : Text) :
    accepts (.anyText :: s.map escapedToken) name ↔ s <:+ name := by
  rw [accepts, List.any_eq_true]
  simp [accepts_escapedTokens, mem_suffixes_iff]

/-! ## Patterns of escaped names -/

/-- The pattern of an escaped name. -/
def Pattern.ofName (name : Text) : Pattern :=
  .name (name.map escapedToken)

theorem head?_escape_ne_star (s : Text) : (escape s).head? ≠ some '*' := by
  cases s with
  | nil => simp [escape_nil]
  | cons c s =>
      rw [escape_cons]
      by_cases hc : isSpecialChar c
      · simp [hc]
      · have hne : c ≠ '*' := by
          rintro rfl
          exact hc rfl
        simp [hc, hne]

theorem escape_ne_anyDepth (name : Text) : escape name ≠ ['*', '*'] := by
  intro heq
  have hhead := head?_escape_ne_star name
  rw [heq] at hhead
  exact hhead rfl

theorem ofText?_escape (name : Text) : Pattern.ofText? (escape name) = some (.ofName name) := by
  rw [Pattern.ofText?, if_neg (escape_ne_anyDepth name), tokens?_escape]
  rfl

theorem Pattern.ofName_accepts (name s : Text) :
    (Pattern.ofName name).accepts s = decide (s = name) :=
  accepts_escapedTokens name s

/-- The names that end in a text. -/
def Pattern.endingIn (s : Text) : Pattern :=
  .name (.anyText :: s.map escapedToken)

theorem ofText?_star_escape (s : Text) :
    Pattern.ofText? ('*' :: escape s) = some (.endingIn s) := by
  have hhead := head?_escape_ne_star s
  have hstars : '*' :: escape s ≠ ['*', '*'] := by
    intro heq
    rw [(List.cons.inj heq).2] at hhead
    exact hhead rfl
  have htokens : tokens? ('*' :: escape s) = (tokens? (escape s)).map (.anyText :: ·) := by
    rw [tokens?]
    rintro rest heq
    rw [heq] at hhead
    exact hhead rfl
  rw [Pattern.ofText?, if_neg hstars, htokens, tokens?_escape]
  rfl

theorem Pattern.endingIn_accepts (s name : Text) :
    (Pattern.endingIn s).accepts name ↔ s <:+ name :=
  accepts_anyText_iff s name

/-- A text without special characters is its own pattern. -/
theorem escape_eq_self {s : Text} (h : s.any isSpecialChar = false) : escape s = s := by
  induction s with
  | nil => rfl
  | cons c s ih =>
      rw [List.any_cons, Bool.or_eq_false_iff] at h
      rw [escape_cons, h.1, ih h.2]
      rfl

/-- A name without special characters is followed as it stands. -/
theorem Pattern.literal?_ofName (name : Text) :
    (Pattern.ofName name).literal? = if name.any isSpecialChar then none else some name := by
  unfold Pattern.ofName Pattern.literal?
  induction name with
  | nil => rfl
  | cons c name ih =>
      simp only at ih
      simp only [List.map_cons, List.mapM_cons, List.any_cons, ih, escapedToken]
      by_cases hc : isSpecialChar c
      · simp [hc, Token.char?]
      · by_cases hany : name.any isSpecialChar
        · simp [hc, hany, Token.char?]
        · simp [hc, hany, Token.char?]

/-! ## Literal names come from the text -/

theorem suffix_of_cutList? {s list behind : Text} (h : cutList? s = some (list, behind)) :
    behind <:+ s := by
  unfold cutList? at h
  split at h
  · cases h
  · rename_i c rest
    split at h
    · rename_i stop tail heq
      have hstop : stop :: tail <:+ rest := heq ▸ List.dropWhile_suffix _
      cases h
      exact (List.suffix_cons _ _).trans (hstop.trans (List.suffix_cons _ _))
    · cases h

theorem suffix_of_listToken? {s behind : Text} {token : Token}
    (h : listToken? s = some (token, behind)) : behind <:+ s := by
  unfold listToken? at h
  split at h
  · obtain ⟨⟨list, rest⟩, hcut, heq⟩ := Option.map_eq_some_iff.mp h
    cases heq
    exact (suffix_of_cutList? hcut).trans (List.suffix_cons _ _)
  · obtain ⟨⟨list, rest⟩, hcut, heq⟩ := Option.map_eq_some_iff.mp h
    cases heq
    exact suffix_of_cutList? hcut

theorem token_ne_char_of_listToken? {s behind : Text} {token : Token}
    (h : listToken? s = some (token, behind)) (c : Char) : token ≠ .char c := by
  rintro rfl
  unfold listToken? at h
  split at h
  · obtain ⟨_, -, heq⟩ := Option.map_eq_some_iff.mp h
    cases heq
  · obtain ⟨_, -, heq⟩ := Option.map_eq_some_iff.mp h
    cases heq

theorem mem_of_char_mem_tokens? {s : Text} {tokens : List Token} (h : tokens? s = some tokens)
    {c : Char} (hc : .char c ∈ tokens) : c ∈ s := by
  fun_induction tokens? s generalizing tokens with
  | case1 =>
      cases h
      cases hc
  | case2 rest ih =>
      obtain ⟨others, hothers, rfl⟩ := Option.map_eq_some_iff.mp h
      rcases List.mem_cons.mp hc with heq | hmem
      · cases heq
      · exact List.mem_cons_of_mem _ (ih hothers hmem)
  | case3 => cases h
  | case4 rest _ ih =>
      obtain ⟨others, hothers, rfl⟩ := Option.map_eq_some_iff.mp h
      rcases List.mem_cons.mp hc with heq | hmem
      · cases heq
      · exact List.mem_cons_of_mem _ (ih hothers hmem)
  | case5 rest token behind hlist ih =>
      obtain ⟨others, hothers, rfl⟩ := Option.map_eq_some_iff.mp h
      rcases List.mem_cons.mp hc with heq | hmem
      · exact absurd heq.symm (token_ne_char_of_listToken? hlist c)
      · exact List.mem_cons_of_mem _ ((suffix_of_listToken? hlist).subset (ih hothers hmem))
  | case6 => cases h
  | case7 d rest _ _ _ _ ih =>
      obtain ⟨others, hothers, rfl⟩ := Option.map_eq_some_iff.mp h
      rcases List.mem_cons.mp hc with heq | hmem
      · cases heq
        exact List.mem_cons_self
      · exact List.mem_cons_of_mem _ (ih hothers hmem)

theorem eq_map_char_of_literal? {tokens : List Token} {name : Text}
    (h : (Pattern.name tokens).literal? = some name) : tokens = name.map .char := by
  unfold Pattern.literal? at h
  simp only at h
  induction tokens generalizing name with
  | nil =>
      cases h
      rfl
  | cons token tokens ih =>
      rw [List.mapM_cons] at h
      obtain ⟨c, hc, h⟩ := Option.bind_eq_some_iff.mp h
      obtain ⟨rest, hrest, h⟩ := Option.bind_eq_some_iff.mp h
      cases h
      have htoken : token = .char c := by
        cases token with
        | char d =>
            cases hc
            rfl
        | _ => cases hc
      rw [htoken, ih hrest, List.map_cons]

theorem mem_of_mem_literal? {s name : Text} {p : Pattern} (hp : Pattern.ofText? s = some p)
    (h : p.literal? = some name) {c : Char} (hc : c ∈ name) : c ∈ s := by
  unfold Pattern.ofText? at hp
  split at hp
  · cases hp
    cases h
  · obtain ⟨tokens, htokens, rfl⟩ := Option.map_eq_some_iff.mp hp
    apply mem_of_char_mem_tokens? htokens
    rw [eq_map_char_of_literal? h]
    exact List.mem_map_of_mem hc

end Glob
end ApiManual
