import ApiManual.Proofs.TypeExpr.Acceptance

/-!
# String literals in callables

A string literal is a type whatever stands between its quotes.  Inside a callable its
brackets and commas count like any others: it is read as one argument if they are balanced,
and only then.
-/

namespace ApiManual
namespace TypeExpr

open Text

/-! ## Callables with one part -/

/-- The first argument of a callable ends where it is no longer balanced. -/
theorem not_read_of_front {front : Text} (h : Balanced (some ',') front) (hne : trim front ≠ [])
    (hbad : ¬ Accepted (argumentType (trim front))) {c : Char}
    (hc : isClosing c ∨ c = ',') (hopen : isOpening c = false) (behind : Text) (type : LuaType) :
    ¬ List.Forall₂ (fun part t => parse part = .ok t)
      (callableParts ('(' :: (front ++ c :: behind))).1 [type] := by
  have hfirst : ∀ list more, components list = trim front :: more →
      ¬ List.Forall₂ (fun part t => parse part = .ok t)
        ((components list).map argumentType) [type] := by
    intro list more hlist hread
    rw [hlist, List.map_cons] at hread
    exact hbad ⟨type, (List.forall₂_cons.mp hread).1⟩
  have hcut : cutAtClose 0 ('(' :: (front ++ c :: behind)) =
      (cutAtClose 1 (c :: behind)).map (Prod.map (fun inside => '(' :: (front ++ inside)) id) := by
    rw [cutAtClose, depthAfter_opening rfl, if_neg (by simp), cutAtClose_pass h, Option.map_map]
    rfl
  rw [callableParts, hcut]
  rcases hc with hclose | rfl
  · have hend : cutAtClose 1 (c :: behind) = some ([], behind) := by
      rw [cutAtClose, depthAfter_closing (by simp [hopen]) hclose, if_pos (by simp [hclose])]
    rw [hend]
    have hlist : components ((front ++ []).drop 0) = [trim front] := by
      rw [List.append_nil]
      exact components_single h hne
    exact hfirst _ [] hlist
  · have hpass : cutAtClose 1 (',' :: behind) =
        (cutAtClose 1 behind).map (Prod.map (',' :: ·) id) := rfl
    rw [hpass]
    cases cutAtClose 1 behind with
    | none =>
        intro hread
        cases hread
    | some parts =>
        obtain ⟨inside, rest⟩ := parts
        exact hfirst _ _ (components_comma h hne inside)

def argumentOf (type : Text) : Text :=
  "x: ".toList ++ type

def withArgument (type : Text) : Text :=
  "fun(".toList ++ (argumentOf type ++ [')'])

def withReturn (type : Text) : Text :=
  "fun(): ".toList ++ type

theorem trimmed_withArgument (type : Text) : Trimmed (withArgument type) := by
  have hlast : (withArgument type).getLast? = some ')' := by
    rw [withArgument, ← List.append_assoc, List.getLast?_concat]
  exact trimmed_of_ends rfl hlast rfl rfl

theorem argumentType_argumentOf (type : Text) : argumentType (argumentOf type) = trim type :=
  rfl

theorem callable?_eq_some {s args : Text} {parts : List Text × List Text}
    (hargs : argumentList? s = some args) (h : callable? s = some parts) :
    parts = callableParts args := by
  rw [callable?, hargs] at h
  simp only at h
  split at h
  · exact (Option.some.inj h).symm
  · cases h

theorem argumentList?_withArgument (type : Text) :
    argumentList? (withArgument type) = some ('(' :: (argumentOf type ++ [')'])) :=
  rfl

theorem afterPrimary_withArgument {type : Text} (h : Balanced none (argumentOf type)) :
    afterPrimary (withArgument type) = .ok [] := by
  rw [afterPrimary_callable (argumentList?_withArgument type), afterGroup_group h]
  rfl

def quoted (quote : Char) (s : Text) : Text :=
  quote :: (s ++ [quote])

theorem getLast?_quoted (quote : Char) (front s : Text) :
    (front ++ quoted quote s).getLast? = some quote := by
  rw [quoted, ← List.cons_append, ← List.append_assoc, List.getLast?_concat]

section

variable {quote : Char} {s : Text} (hquote : quote = '"' ∨ quote = '\'')

include hquote

/-! ## Literals on their own -/

theorem isWhitespace_quote : isWhitespace quote = false := by
  rcases hquote with rfl | rfl <;> rfl

theorem balanced_quote {separator : Option Char}
    (hseparator : separator = none ∨ separator = some ',') : Balanced separator [quote] := by
  rcases hquote with rfl | rfl <;> rcases hseparator with rfl | rfl <;> rfl

theorem argumentList?_quote (s : Text) : argumentList? (quote :: s) = none := by
  rcases hquote with rfl | rfl
  · exact argumentList?_of_ne (by decide) s
  · exact argumentList?_of_ne (by decide) s

theorem trimmed_quoted (s : Text) : Trimmed (quoted quote s) :=
  trimmed_of_ends rfl (getLast?_quoted quote [] s) (isWhitespace_quote hquote)
    (isWhitespace_quote hquote)

theorem afterPrimary_quoted (hs : quote ∉ s) : afterPrimary (quoted quote s) = .ok [] :=
  afterPrimary_literal hquote hs []

theorem parse_quoted (hs : quote ∉ s) :
    parse (quoted quote s) = .ok (.named (quoted quote s)) := by
  have htrim : trim (quoted quote s) = quoted quote s := trimmed_quoted hquote s
  have hread := afterUnion_of_afterPrimary (afterPrimary_quoted hquote hs)
  have hcallable : callable? (quoted quote s) = none := by
    rw [callable?, quoted, argumentList?_quote hquote]
  have hname : quoted quote s ∉ builtinNames := by
    rcases hquote with rfl | rfl <;> simp [quoted, builtinNames]
  have hparse := parse_simple (s := quoted quote s)
  rw [htrim, simple_eq_named hname] at hparse
  exact hparse (by simp [quoted]) hread hcallable

theorem trimmed_quote : Trimmed [quote] :=
  trimmed_of_ends rfl rfl (isWhitespace_quote hquote) (isWhitespace_quote hquote)

/-- A literal that is not closed is no type. -/
theorem not_accepted_open (hs : quote ∉ s) : ¬ Accepted (quote :: s) := by
  obtain ⟨rest, htrim, hrest⟩ := (trimmed_quote hquote).exists_trim_append (by simp) s
  have hdrop : rest.dropWhile (· ≠ quote) = [] := by
    refine List.dropWhile_eq_nil_iff.mpr fun c hc => ?_
    have hne : c ≠ quote := fun heq => hs (heq ▸ hrest.subset hc)
    simpa using hne
  have hread : afterPrimary (quote :: rest) = .error .unterminated := by
    rw [afterPrimary_simple (argumentList?_quote hquote rest)]
    have hliteral : afterLiteral quote rest = .error .unterminated := by
      rw [afterLiteral, hdrop]
    rcases hquote with rfl | rfl
    · exact hliteral
    · exact hliteral
  have hunion : afterUnion (quote :: rest) = .error .unterminated := by
    rw [afterUnion, if_neg (by simp), afterSuffixed, hread]
    rfl
  rintro ⟨type, hparse⟩
  rw [List.singleton_append] at htrim
  rw [parse_eq, htrim, if_neg (by simp), List.singleton_append, hunion] at hparse
  cases hparse

/-! ## Literals as arguments -/

theorem depthBehind_argumentOf {separator : Option Char}
    (hseparator : separator = none ∨ separator = some ',') (s : Text) :
    depthBehind separator 0 (argumentOf (quote :: s)) = depthBehind separator 0 s := by
  have hlead : Balanced separator (argumentOf [quote]) := by
    have hname : Balanced separator "x: ".toList := by
      rcases hseparator with rfl | rfl <;> rfl
    exact hname.append (balanced_quote hquote hseparator)
  have happend : argumentOf (quote :: s) = argumentOf [quote] ++ s := rfl
  rw [happend, depthBehind_append, hlead]
  rfl

theorem balanced_argumentOf {separator : Option Char}
    (hseparator : separator = none ∨ separator = some ',') (h : Balanced separator s) :
    Balanced separator (argumentOf (quoted quote s)) := by
  have hclosed := h.append (balanced_quote hquote hseparator)
  exact (depthBehind_argumentOf hquote hseparator _).trans hclosed

/-- No argument is a literal that is not closed. -/
theorem not_accepted_openArgument (hs : quote ∉ s) :
    trim (argumentOf (quote :: s)) ≠ [] ∧
      ¬ Accepted (argumentType (trim (argumentOf (quote :: s)))) := by
  have hlead : Trimmed (argumentOf [quote]) :=
    trimmed_of_ends rfl (d := quote) rfl rfl (isWhitespace_quote hquote)
  obtain ⟨rest, htrim, hrest⟩ := hlead.exists_trim_append (by simp [argumentOf]) s
  have hargument : trim (argumentOf (quote :: s)) = argumentOf (quote :: rest) := htrim
  rw [hargument, argumentType_argumentOf]
  refine ⟨by simp [argumentOf], ?_⟩
  obtain ⟨rest', htrim', hrest'⟩ := (trimmed_quote hquote).exists_trim_append (by simp) rest
  rw [List.singleton_append] at htrim'
  rw [htrim']
  exact not_accepted_open hquote fun hmem => hs (hrest.subset (hrest'.subset hmem))

/-- A bracket that stays open in a literal takes the closing one of the argument list. -/
theorem cutAtClose_openArgument {d : ℕ} (h : depthBehind (some ',') 0 s = some (d + 1)) :
    cutAtClose 0 ('(' :: (argumentOf (quoted quote s) ++ [')'])) = none := by
  have hopen : cutAtClose (d + 2) [quote, ')'] = none := by
    rcases hquote with rfl | rfl <;> rfl
  have happend : argumentOf (quoted quote s) ++ [')'] =
      argumentOf (quote :: s) ++ [quote, ')'] := by
    simp [argumentOf, quoted]
  rw [happend, cutAtClose, depthAfter_opening rfl, if_neg (by simp),
    cutAtClose_pass ((depthBehind_argumentOf hquote (.inr rfl) s).trans h), hopen]
  rfl

theorem callableParts_argument (h : Balanced (some ',') s) :
    callableParts ('(' :: (argumentOf (quoted quote s) ++ [')'])) = ([quoted quote s], []) := by
  have hbalanced := balanced_argumentOf hquote (.inr rfl) h
  have hargument : trim (argumentOf (quoted quote s)) = argumentOf (quoted quote s) :=
    trimmed_of_ends rfl (getLast?_quoted quote _ s) rfl (isWhitespace_quote hquote)
  have hquoted : trim (quoted quote s) = quoted quote s := trimmed_quoted hquote s
  rw [callableParts, cutAtClose_group hbalanced.weaken]
  simp only [List.drop_one, List.tail_cons]
  rw [components_single hbalanced (by rw [hargument]; simp [argumentOf]), hargument,
    List.map_singleton, argumentType_argumentOf, hquoted]
  rfl

theorem parse_withArgument_iff (hs : quote ∉ s) :
    parse (withArgument (quoted quote s)) = .ok (.callable [.named (quoted quote s)] []) ↔
      Balanced (some ',') s := by
  have htrim : trim (withArgument (quoted quote s)) = withArgument (quoted quote s) :=
    trimmed_withArgument _
  have hlist := argumentList?_withArgument (quoted quote s)
  rw [parse_eq_callable_iff, htrim]
  constructor
  · rintro ⟨argParts, returnParts, hparts, hargs, -⟩
    have heq := congrArg Prod.fst (callable?_eq_some hlist hparts)
    simp only at heq
    rw [heq] at hargs
    rcases depthBehind_cases (some ',') 0 s with ⟨d, hd⟩ | ⟨front, c, back, rfl, hfront, hopen, hc⟩
    · cases d with
      | zero => exact hd
      | succ d =>
          rw [callableParts, cutAtClose_openArgument hquote hd] at hargs
          cases hargs
    · have hfrontQuote : quote ∉ front := fun hmem => hs (List.mem_append_left _ hmem)
      obtain ⟨hne, hbad⟩ := not_accepted_openArgument hquote hfrontQuote
      have hcomma : isClosing c ∨ c = ',' := by simpa using hc
      have hbalanced := (depthBehind_argumentOf hquote (.inr rfl) front).trans hfront
      have hnot := not_read_of_front hbalanced hne hbad hcomma hopen
        (back ++ [quote, ')']) (.named (quoted quote (front ++ c :: back)))
      refine absurd ?_ hnot
      simpa [argumentOf, quoted] using hargs
  · intro h
    have hread := afterPrimary_withArgument (balanced_argumentOf hquote (.inr rfl) h).weaken
    refine ⟨[quoted quote s], [], ?_, .cons (parse_quoted hquote hs) .nil, .nil⟩
    rw [callable?, hlist]
    simp only [hread, callableParts_argument hquote h]

/-! ## Literals as returns -/

theorem trimmed_withReturn (s : Text) : Trimmed (withReturn (quoted quote s)) :=
  trimmed_of_ends rfl (getLast?_quoted quote _ s) rfl (isWhitespace_quote hquote)

theorem callable?_withReturn (hs : quote ∉ s) :
    callable? (withReturn (quoted quote s)) = some ([], components (quoted quote s)) := by
  have hlist : argumentList? (withReturn (quoted quote s)) =
      some ('(' :: ([] ++ ')' :: (": ".toList ++ quoted quote s))) := rfl
  have hround : (quoted quote s).head? ≠ some '(' := by
    rcases hquote with rfl | rfl <;> simp [quoted]
  have hskip : skipBlanks (quoted quote s) = quoted quote s :=
    Trimmed.skipBlanks_eq (trimmed_quoted hquote s)
  have hpart : returnPart? (": ".toList ++ quoted quote s) = some (quoted quote s) :=
    congrArg some hskip
  have hread : afterPrimary (withReturn (quoted quote s)) = .ok [] := by
    rw [afterPrimary_callable hlist, afterGroup_group (balanced_nil none)]
    change afterReturns (": ".toList ++ quoted quote s) = .ok []
    rw [afterReturns, hpart]
    simp only [if_neg hround]
    rw [afterSuffixed, afterPrimary_quoted hquote hs]
    rfl
  have htrim : trim (' ' :: quoted quote s) = quoted quote s := trimmed_quoted hquote s
  rw [callable?, hlist]
  simp only [hread]
  rw [callableParts, cutAtClose_group (balanced_nil none)]
  have hstart : trimStart (": ".toList ++ quoted quote s) = ':' :: ' ' :: quoted quote s := rfl
  simp only [hstart, htrim, ungroup_eq_self hround, List.drop_one, List.tail_cons,
    components_nil, List.map_nil]

theorem cutAtTop_quoted (s : Text) :
    cutAtTop ',' 0 (quoted quote s) = (cutAtTop ',' 0 (s ++ [quote])).map
      fun (front, behind) => (quote :: front, behind) :=
  cutAtTop_pass rfl rfl (balanced_quote hquote (.inr rfl)) (s ++ [quote])

theorem parse_withReturn_iff (hs : quote ∉ s) :
    parse (withReturn (quoted quote s)) = .ok (.callable [] [.named (quoted quote s)]) ↔
      cutAtTop ',' 0 s = none := by
  have htrim : trim (withReturn (quoted quote s)) = withReturn (quoted quote s) :=
    trimmed_withReturn hquote s
  have hcomma : quote ≠ ',' := by
    rcases hquote with rfl | rfl <;> decide
  rw [parse_eq_callable_iff, htrim, callable?_withReturn hquote hs]
  constructor
  · rintro ⟨argParts, returnParts, hparts, -, hreturns⟩
    cases hparts
    cases hcut : cutAtTop ',' 0 s with
    | none => rfl
    | some parts =>
        obtain ⟨front, behind⟩ := parts
        have hfront : quote ∉ front := by
          rw [append_of_cutAtTop hcut] at hs
          exact fun hmem => hs (List.mem_append_left _ hmem)
        have hwhole : cutAtTop ',' 0 (quoted quote s) =
            some (quote :: front, behind ++ [quote]) := by
          rw [cutAtTop_quoted hquote, cutAtTop_append hcut]
          rfl
        obtain ⟨rest, hopen, hrest⟩ := (trimmed_quote hquote).exists_trim_append (by simp) front
        rw [List.singleton_append] at hopen
        rw [components, splitTop_of_cut hwhole, List.map_cons, hopen,
          List.filter_cons_of_pos (by simp)] at hreturns
        have hread := (List.forall₂_cons.mp hreturns).1
        exact absurd ⟨_, hread⟩ (not_accepted_open hquote fun hmem => hfront (hrest.subset hmem))
  · intro hcut
    have hwhole : cutAtTop ',' 0 (quoted quote s) = none := by
      rw [cutAtTop_quoted hquote, cutAtTop_concat_none hcomma hcut]
      rfl
    have hquoted : trim (quoted quote s) = quoted quote s := trimmed_quoted hquote s
    have hsingle : components (quoted quote s) = [quoted quote s] := by
      rw [components, splitTop_of_none hwhole, List.map_singleton, hquoted]
      simp [quoted]
    refine ⟨[], _, rfl, .nil, ?_⟩
    rw [hsingle]
    exact .cons (parse_quoted hquote hs) .nil

theorem split_withArgument (h : Balanced none s) {details : Text}
    (hdetails : Separate (withArgument (quoted quote s)) details) :
    split (withArgument (quoted quote s) ++ ' ' :: details) =
      .ok (withArgument (quoted quote s), trim details) := by
  have hne : withArgument (quoted quote s) ≠ [] := by simp [withArgument]
  have hread := afterUnion_of_afterPrimary
    (afterPrimary_withArgument (balanced_argumentOf hquote (.inl rfl) h))
  have hstart : trimStart (withArgument (quoted quote s) ++ ' ' :: details) =
      withArgument (quoted quote s) ++ ' ' :: details := rfl
  rw [split, hstart, afterUnion_append hread hne hdetails]
  simp [Except.map, trim_space]

/-- A literal is a type of its own.  As the only argument of a callable it is read exactly
if its brackets are balanced and no comma stands between them, as the only return exactly
if it has no comma at the top level; and a callable with balanced brackets in the literal
is told from the description behind it. -/
theorem parse_literals (hs : quote ∉ s) :
    parse (quoted quote s) = .ok (.named (quoted quote s)) ∧
      (parse (withArgument (quoted quote s)) = .ok (.callable [.named (quoted quote s)] []) ↔
        Balanced (some ',') s) ∧
      (parse (withReturn (quoted quote s)) = .ok (.callable [] [.named (quoted quote s)]) ↔
        cutAtTop ',' 0 s = none) ∧
      (Balanced none s → ∀ details, Separate (withArgument (quoted quote s)) details →
        split (withArgument (quoted quote s) ++ ' ' :: details) =
          .ok (withArgument (quoted quote s), trim details)) :=
  ⟨parse_quoted hquote hs, parse_withArgument_iff hquote hs, parse_withReturn_iff hquote hs,
    fun h _ hdetails => split_withArgument hquote h hdetails⟩

end

theorem parse_literals_sides :
    let sides := quoted '"' "(left, right)".toList
    '"' ∉ "(left, right)".toList ∧ Balanced (some ',') "(left, right)".toList ∧
      parse sides = .ok (.named sides) ∧
      parse (withArgument sides) = .ok (.callable [.named sides] []) ∧
      parse (withReturn sides) = .ok (.callable [] [.named sides]) ∧
      split (withArgument sides ++ " Either side".toList) =
        .ok (withArgument sides, "Either side".toList) := by
  intro sides
  have hquote : '"' ∉ "(left, right)".toList := by decide
  have hbalanced : Balanced (some ',') "(left, right)".toList := rfl
  obtain ⟨hparse, hargument, hreturn, hsplit⟩ := parse_literals (.inl rfl) hquote
  exact ⟨hquote, hbalanced, hparse, hargument.mpr hbalanced, hreturn.mpr rfl,
    hsplit hbalanced.weaken "Either side".toList (.of_isAlpha rfl rfl)⟩

/-- A bracket in a literal closes the argument list around it, and a comma in a literal
takes it apart. -/
theorem not_parse_bracketLiteral :
    let bracket := quoted '"' [')']
    let comma := quoted '"' [',']
    parse bracket = .ok (.named bracket) ∧ parse comma = .ok (.named comma) ∧
      parse (withArgument bracket) = .error (.unexpected "\")".toList) ∧
      parse (withReturn comma) ≠ .ok (.callable [] [.named comma]) ∧
      split (withArgument bracket ++ " Closes".toList) =
        .ok ("fun(x: \")".toList, "\") Closes".toList) := by
  intro bracket comma
  have hunion : afterUnion (trim (withArgument bracket)) = .ok "\")".toList := by decide +kernel
  have hsplit : split (withArgument bracket ++ " Closes".toList) =
      .ok ("fun(x: \")".toList, "\") Closes".toList) := by decide +kernel
  refine ⟨parse_quoted (.inl rfl) (by decide), parse_quoted (.inl rfl) (by decide), ?_, ?_, hsplit⟩
  · rw [parse_eq, hunion]
    rfl
  · intro hparse
    have hcut := (parse_withReturn_iff (.inl rfl) (by decide)).mp hparse
    exact absurd hcut (by decide)

end TypeExpr
end ApiManual
