import ApiManual.Proofs.Result
import ApiManual.Proofs.TypeExpr.Balance
import ApiManual.Proofs.Unicode.Classes
import ApiManual.TypeExpr.Parse

/-!
# Printing and reading types

A type is written as it stands in an annotation.  What is read from the text of a
well-formed type is the type itself, and behind the text of a type in front of a
description is the description.
-/

namespace ApiManual

open Text

def TypeExpr.returnText (returns : List Text) : Text :=
  if returns.isEmpty then []
  else ':' :: ' ' :: '(' :: (join [',', ' '] returns ++ [')'])

def TypeExpr.callableText (args returns : List Text) : Text :=
  'f' :: 'u' :: 'n' :: '(' :: (join [',', ' '] args ++ ')' :: TypeExpr.returnText returns)

mutual

/-- A type as it is written in an annotation. -/
def LuaType.text : LuaType → Text
  | .any => "any".toList
  | .string => "string".toList
  | .boolean => "boolean".toList
  | .named name => name
  | .function id => id
  | .callable args returns =>
    TypeExpr.callableText (LuaType.texts args) (LuaType.texts returns)

def LuaType.texts : List LuaType → List Text
  | [] => []
  | t :: ts => t.text :: LuaType.texts ts

end

theorem LuaType.texts_eq_map (ts : List LuaType) : LuaType.texts ts = ts.map LuaType.text := by
  induction ts with
  | nil => rfl
  | cons t ts ih => exact congrArg (t.text :: ·) ih

theorem LuaType.text_callable (args returns : List LuaType) :
    (LuaType.callable args returns).text =
      TypeExpr.callableText (args.map LuaType.text) (returns.map LuaType.text) := by
  rw [← LuaType.texts_eq_map, ← LuaType.texts_eq_map]
  rfl

namespace TypeExpr

/-! ## Argument names

A colon at the top level makes an argument of what is in front of it only if that is a
name, and no whole type begins with a name and a colon.
-/

/-- A colon with nothing but whitespace in front. -/
def ColonAhead (s : Text) : Prop :=
  ∃ spaces behind, s = spaces ++ ':' :: behind ∧ ∀ c ∈ spaces, isWhitespace c

namespace ColonAhead

theorem dropWhile {s : Text} (h : ColonAhead s) {p : Char → Bool} (hp : p ':' = false) :
    ColonAhead (s.dropWhile p) := by
  obtain ⟨spaces, behind, rfl, hspaces⟩ := h
  induction spaces with
  | nil => exact ⟨[], behind, by simp [hp], by simp⟩
  | cons c spaces ih =>
      rw [List.forall_mem_cons] at hspaces
      rw [List.cons_append, List.dropWhile_cons]
      split
      · exact ih hspaces.2
      · exact ⟨c :: spaces, behind, rfl, List.forall_mem_cons.mpr hspaces⟩

theorem head?_ne {s : Text} (h : ColonAhead s) {c : Char} (hcolon : c ≠ ':')
    (hspace : isWhitespace c = false) : s.head? ≠ some c := by
  obtain ⟨spaces, behind, rfl, hspaces⟩ := h
  intro hhead
  cases spaces with
  | nil =>
      cases hhead
      exact hcolon rfl
  | cons d spaces =>
      cases hhead
      have hd := hspaces c List.mem_cons_self
      simp [hd] at hspace

theorem ne_nil {s : Text} (h : ColonAhead s) : s ≠ [] := by
  obtain ⟨spaces, behind, rfl, -⟩ := h
  simp

theorem dropSuffixes_eq {s : Text} (h : ColonAhead s) : dropSuffixes s = s := by
  apply dropSuffixes_eq_self
  · rintro rest rfl
    exact h.head?_ne (c := '[') (by decide) rfl rfl
  · rintro rest rfl
    exact h.head?_ne (c := '?') (by decide) rfl rfl

theorem afterAlternatives_eq {s : Text} (h : ColonAhead s) : afterAlternatives s = .ok s := by
  have hskip : ColonAhead (skipBlanks s) := h.dropWhile rfl
  exact afterAlternatives_stop (hskip.head?_ne (by decide) rfl)

theorem argumentList?_eq_none {name s : Text} (hname : ∀ c ∈ name, isNameChar c)
    (h : ColonAhead s) : argumentList? (name ++ s) = none := by
  have hahead : ColonAhead (skipBlanks ((name ++ s).dropWhile isNameChar)) := by
    rw [List.dropWhile_append_of_pos hname]
    exact (h.dropWhile rfl).dropWhile rfl
  have hgroup := hahead.head?_ne (c := '(') (by decide) rfl
  unfold argumentList?
  split
  · rename_i rest heq
    rw [heq] at hgroup
    exact absurd rfl hgroup
  · rename_i rest heq
    rw [heq] at hgroup
    exact absurd rfl hgroup
  · rfl

theorem afterSimple_eq {name s : Text} (hne : name ≠ []) (hname : ∀ c ∈ name, isNameChar c)
    (h : ColonAhead s) : afterSimple (name ++ s) = .ok (s.dropWhile isNameChar) := by
  have hdrop : (name ++ s).dropWhile isNameChar = s.dropWhile isNameChar :=
    List.dropWhile_append_of_pos hname
  have hhead : ∀ c ∈ (name ++ s).head?, isNameChar c := by
    rw [List.head?_append_of_ne_nil _ hne]
    exact fun c hc => hname c (List.mem_of_mem_head? hc)
  rw [afterSimple_of_isNameChar (by simp [hne]) hhead, afterName_of_ne, hdrop]
  rw [hdrop]
  exact (h.dropWhile rfl).head?_ne (by decide) rfl

theorem afterUnion_ne {name s : Text} (hne : name ≠ []) (hname : ∀ c ∈ name, isNameChar c)
    (h : ColonAhead s) : afterUnion (name ++ s) ≠ .ok [] := by
  have hrest : ColonAhead (s.dropWhile isNameChar) := h.dropWhile rfl
  have hsuffixed : afterSuffixed (name ++ s) = .ok (s.dropWhile isNameChar) := by
    rw [afterSuffixed, afterPrimary_simple (argumentList?_eq_none hname h),
      afterSimple_eq hne hname h]
    simp [Except.map, hrest.dropSuffixes_eq]
  rw [afterUnion, if_neg (by simp [hne]), hsuffixed]
  change afterAlternatives (s.dropWhile isNameChar) ≠ .ok []
  rw [hrest.afterAlternatives_eq]
  intro hall
  exact hrest.ne_nil (Except.ok.inj hall)

end ColonAhead

theorem isNameChar_of_isAlphanumeric {c : Char} (h : Unicode.isAlphanumeric c) :
    isNameChar c := by
  by_cases hascii : c.toNat < 0x80
  · simp [isNameChar, Unicode.isAlphanum_of_isAlphanumeric h hascii]
  · simp [isNameChar, Nat.le_of_not_lt hascii]

theorem isNameChar_of_isIdentifier {s : Text} (h : isIdentifier s) :
    s ≠ [] ∧ ∀ c ∈ s, isNameChar c := by
  cases s with
  | nil => cases h
  | cons c s =>
      simp only [isIdentifier, Bool.and_eq_true, Bool.or_eq_true, decide_eq_true_eq,
        List.all_eq_true] at h
      refine ⟨by simp, List.forall_mem_cons.mpr ⟨?_, ?_⟩⟩
      · rcases h.1 with hletter | rfl
        · exact isNameChar_of_isAlphanumeric (by simp [Unicode.isAlphanumeric, hletter])
        · rfl
      · intro d hd
        rcases h.2 d hd with hletter | rfl
        · exact isNameChar_of_isAlphanumeric hletter
        · rfl

theorem append_of_cutAtTop {separator : Char} {depth : ℕ} {s front behind : Text}
    (h : cutAtTop separator depth s = some (front, behind)) :
    s = front ++ separator :: behind := by
  induction s generalizing depth front with
  | nil => simp [cutAtTop] at h
  | cons c s ih =>
      rw [cutAtTop] at h
      split at h
      · rename_i hhit
        simp only [Bool.and_eq_true, decide_eq_true_eq] at hhit
        cases h
        rw [hhit.1, List.nil_append]
      · obtain ⟨⟨inner, rest⟩, hcut, heq⟩ := Option.map_eq_some_iff.mp h
        cases heq
        rw [ih hcut, List.cons_append]

/-- A whole type is no argument with a name. -/
theorem argumentType_eq_self {s : Text} (h : afterUnion s = .ok []) (hs : Trimmed s) :
    argumentType s = s := by
  unfold argumentType
  split
  · rename_i front behind hcut
    have hcut := append_of_cutAtTop hcut
    simp only
    rw [if_neg]
    intro hname
    have hword : trim front ≠ [] ∧ ∀ c ∈ trim front, isNameChar c := by
      simp only [Bool.or_eq_true, decide_eq_true_eq] at hname
      rcases hname with hdots | hident
      · rw [hdots]
        exact ⟨by decide, List.all_eq_true.mp rfl⟩
      · exact isNameChar_of_isIdentifier hident
    have hstart : trimStart front = front := by
      apply trimStart_eq_self_iff.mpr
      intro c hc
      apply hs.head c
      rw [hcut, List.head?_append]
      simp [Option.mem_def.mp hc]
    obtain ⟨spaces, hfront, hspaces⟩ := exists_trimEnd_append front
    have htrim : trim front = trimEnd front := by rw [trim, hstart]
    have hwhole : s = trim front ++ (spaces ++ ':' :: behind) := by
      rw [hcut, htrim, ← List.append_assoc, ← hfront]
    rw [hwhole] at h
    exact ColonAhead.afterUnion_ne hword.1 hword.2 ⟨spaces, behind, rfl, hspaces⟩ h
  · rfl

/-! ## Components -/

/-- A text that can stand between the commas of a callable. -/
structure Component (s : Text) : Prop where
  nonempty : s ≠ []
  trimmed : Trimmed s
  balanced : Balanced (some ',') s
  unnamed : argumentType s = s

theorem splitTop_of_cut {separator : Char} {s front behind : Text}
    (h : cutAtTop separator 0 s = some (front, behind)) :
    splitTop separator s = front :: splitTop separator behind := by
  rw [splitTop]
  split
  · rename_i front' behind' hcut
    cases h.symm.trans hcut
    rfl
  · rename_i hnone
    cases h.symm.trans hnone

theorem splitTop_of_none {separator : Char} {s : Text} (h : cutAtTop separator 0 s = none) :
    splitTop separator s = [s] := by
  rw [splitTop]
  split
  · rename_i front behind hcut
    cases h.symm.trans hcut
  · rfl

theorem splitTop_balanced {s : Text} (h : Balanced (some ',') s) : splitTop ',' s = [s] := by
  apply splitTop_of_none
  have hpass := cutAtTop_pass rfl rfl h []
  rw [List.append_nil] at hpass
  rw [hpass]
  rfl

theorem splitTop_comma {s : Text} (h : Balanced (some ',') s) (rest : Text) :
    splitTop ',' (s ++ ',' :: rest) = s :: splitTop ',' rest := by
  apply splitTop_of_cut
  have hcomma : cutAtTop ',' 0 (',' :: rest) = some ([], rest) := rfl
  rw [cutAtTop_pass rfl rfl h, hcomma]
  simp

theorem components_single {part : Text} (h : Balanced (some ',') part) (hne : trim part ≠ []) :
    components part = [trim part] := by
  rw [components, splitTop_balanced h]
  simp [hne]

theorem components_comma {part : Text} (h : Balanced (some ',') part) (hne : trim part ≠ [])
    (rest : Text) : components (part ++ ',' :: rest) = trim part :: components rest := by
  rw [components, splitTop_comma h, components]
  simp [hne]

theorem components_join {parts : List Text} (h : ∀ s ∈ parts, Component s) :
    components (join [',', ' '] parts) = parts := by
  cases parts with
  | nil =>
      have hsplit : splitTop ',' (join [',', ' '] []) = [[]] := splitTop_balanced rfl
      rw [components, hsplit]
      rfl
  | cons part parts =>
      obtain ⟨hpart, hparts⟩ := List.forall_mem_cons.mp h
      have hspaced : ∀ s ∈ parts, Balanced (some ',') (' ' :: s) ∧ Trimmed s :=
        fun s hs => ⟨(hparts s hs).balanced, (hparts s hs).trimmed⟩
      have hsplit := map_trim_split_join (fun s => splitTop_balanced)
        (fun s rest hs => splitTop_comma hs rest) [] hpart.balanced hpart.trimmed hspaced
      rw [List.nil_append] at hsplit
      rw [components, hsplit, List.filter_eq_self]
      intro s hs
      simpa using (h s hs).nonempty

theorem balanced_join {parts : List Text} (h : ∀ s ∈ parts, Component s) :
    Balanced none (join [',', ' '] parts) := by
  induction parts with
  | nil => rfl
  | cons part parts ih =>
      have hpart : Balanced none part := (h part List.mem_cons_self).balanced.weaken
      cases parts with
      | nil => simpa [join] using hpart
      | cons next parts =>
          have hcomma : Balanced none [',', ' '] := rfl
          rw [join_cons_cons]
          apply hpart.append
          apply hcomma.append
          exact ih fun s hs => h s (List.mem_cons_of_mem _ hs)

/-! ## Callables -/

theorem returnText_cons (ret : Text) (returns : List Text) :
    returnText (ret :: returns) =
      ':' :: ' ' :: '(' :: (join [',', ' '] (ret :: returns) ++ [')']) := by
  simp [returnText]

theorem afterReturns_returnText {returns : List Text} (h : ∀ s ∈ returns, Component s) :
    afterReturns (returnText returns) = .ok [] := by
  cases returns with
  | nil => rfl
  | cons ret returns =>
      have hpart : returnPart? (returnText (ret :: returns)) =
          some ('(' :: (join [',', ' '] (ret :: returns) ++ [')'])) := by
        rw [returnText_cons]
        rfl
      rw [afterReturns, hpart]
      simp only [List.head?_cons, if_true]
      exact afterGroup_group (balanced_join h) []

theorem argumentList?_callableText (args returns : List Text) :
    argumentList? (callableText args returns) =
      some ('(' :: (join [',', ' '] args ++ ')' :: returnText returns)) := by
  rfl

theorem afterPrimary_callableText {args returns : List Text}
    (hargs : ∀ s ∈ args, Component s) (hreturns : ∀ s ∈ returns, Component s) :
    afterPrimary (callableText args returns) = .ok [] := by
  rw [afterPrimary_callable (argumentList?_callableText args returns),
    afterGroup_group (balanced_join hargs)]
  exact afterReturns_returnText hreturns

theorem afterUnion_callableText {args returns : List Text}
    (hargs : ∀ s ∈ args, Component s) (hreturns : ∀ s ∈ returns, Component s) :
    afterUnion (callableText args returns) = .ok [] :=
  afterUnion_of_afterPrimary (afterPrimary_callableText hargs hreturns)

theorem ungroup_group {s : Text} (h : Balanced none s) :
    ungroup ('(' :: (s ++ [')'])) = s := by
  have hcut : cutAtClose 0 ('(' :: (s ++ [')'])) = some ('(' :: s, []) :=
    cutAtClose_group h []
  simp only [ungroup, hcut, List.drop_one, List.tail_cons]

theorem trim_group (s : Text) : trim (' ' :: '(' :: (s ++ [')'])) = '(' :: (s ++ [')']) := by
  have hlast : ('(' :: (s ++ [')'])).getLast? = some ')' := by
    rw [← List.cons_append, List.getLast?_concat]
  exact (trim_space _).trans (trimmed_of_ends rfl hlast rfl rfl)

theorem callableParts_text {args returns : List Text} (hargs : ∀ s ∈ args, Component s)
    (hreturns : ∀ s ∈ returns, Component s) :
    callableParts ('(' :: (join [',', ' '] args ++ ')' :: returnText returns)) =
      (args, returns) := by
  have harguments : args.map argumentType = args :=
    (List.map_congr_left fun s hs => (hargs s hs).unnamed).trans (List.map_id args)
  rw [callableParts, cutAtClose_group (balanced_join hargs)]
  simp only [List.drop_one, List.tail_cons, components_join hargs, harguments]
  cases returns with
  | nil => rfl
  | cons ret returns =>
      have hstart : trimStart (returnText (ret :: returns)) =
          ':' :: ' ' :: '(' :: (join [',', ' '] (ret :: returns) ++ [')']) := by
        rw [returnText_cons]
        rfl
      simp only [hstart, trim_group, ungroup_group (balanced_join hreturns),
        components_join hreturns]

theorem callable?_callableText {args returns : List Text} (hargs : ∀ s ∈ args, Component s)
    (hreturns : ∀ s ∈ returns, Component s) :
    callable? (callableText args returns) = some (args, returns) := by
  rw [callable?, argumentList?_callableText]
  simp only [afterPrimary_callableText hargs hreturns, callableParts_text hargs hreturns]

theorem callableText_eq_group (args returns : List Text) :
    callableText args returns =
      "fun".toList ++ (('(' :: (join [',', ' '] args ++ [')'])) ++ returnText returns) := by
  simp [callableText]

theorem exists_callableText_concat (args returns : List Text) :
    ∃ front, callableText args returns = front ++ [')'] := by
  cases returns with
  | nil => exact ⟨"fun(".toList ++ join [',', ' '] args, by simp [callableText, returnText]⟩
  | cons ret returns =>
      refine ⟨"fun(".toList ++ join [',', ' '] args ++ [')'] ++
        (": (".toList ++ join [',', ' '] (ret :: returns)), ?_⟩
      simp [callableText, returnText]

theorem trimmed_callableText (args returns : List Text) :
    Trimmed (callableText args returns) := by
  obtain ⟨front, hfront⟩ := exists_callableText_concat args returns
  have hlast : (callableText args returns).getLast? = some ')' := by
    rw [hfront, List.getLast?_concat]
  exact trimmed_of_ends rfl hlast rfl rfl

theorem balanced_returnText {returns : List Text} (h : ∀ s ∈ returns, Component s) :
    Balanced (some ',') (returnText returns) := by
  cases returns with
  | nil => rfl
  | cons ret returns =>
      have hcolon : Balanced (some ',') [':', ' '] := rfl
      have hgroup := (balanced_join h).group (some ',')
      rw [returnText_cons]
      exact hcolon.append hgroup

theorem component_callableText {args returns : List Text} (hargs : ∀ s ∈ args, Component s)
    (hreturns : ∀ s ∈ returns, Component s) : Component (callableText args returns) where
  nonempty := by simp [callableText]
  trimmed := trimmed_callableText args returns
  balanced := by
    have hfun : Balanced (some ',') "fun".toList := rfl
    have hgroup := (balanced_join hargs).group (some ',')
    rw [callableText_eq_group]
    exact hfun.append (hgroup.append (balanced_returnText hreturns))
  unnamed := by
    have hunion := afterUnion_callableText hargs hreturns
    exact argumentType_eq_self hunion (trimmed_callableText args returns)

/-! ## Reading what is printed -/

/-- A type that can be a part of a callable.  A type kept by name is read back as that
name, and does not disturb the brackets and commas around it. -/
inductive Part : LuaType → Prop
  | any : Part .any
  | string : Part .string
  | boolean : Part .boolean
  | function : Part (.function "function".toList)
  | named {name : Text} (hname : parse name = .ok (.named name))
      (hinside : Unquoted name ∨ Balanced (some ',') name) : Part (.named name)
  | callable {args returns : List LuaType} (hargs : ∀ t ∈ args, Part t)
      (hreturns : ∀ t ∈ returns, Part t) : Part (.callable args returns)

/-- A type that is read back from its text. -/
def WellFormed (t : LuaType) : Prop :=
  Part t ∨ ∃ name, t = .named name ∧ parse name = .ok (.named name)

/-- What a text is as a type expression of its own. -/
structure Expression (s : Text) (t : LuaType) : Prop where
  nonempty : s ≠ []
  trimmed : Trimmed s
  whole : afterUnion s = .ok []
  parsed : parse s = .ok t

theorem eq_of_simple_eq_named {s name : Text} (h : simple s = .named name) : s = name := by
  unfold simple at h
  split at h
  · cases h
  · split at h
    · cases h
    · split at h
      · cases h
      · split at h
        · cases h
        · cases h
          rfl

def builtinNames : List Text :=
  ["any".toList, "string".toList, "boolean".toList, "bool".toList, "function".toList]

theorem simple_eq_named {s : Text} (h : s ∉ builtinNames) : simple s = .named s := by
  simp only [builtinNames, List.mem_cons, not_or] at h
  obtain ⟨hany, hstring, hboolean, hbool, hfunction, -⟩ := h
  have hbooleans : ¬(s = "boolean".toList || s = "bool".toList) := by
    simp only [Bool.or_eq_true, decide_eq_true_eq, not_or]
    exact ⟨hboolean, hbool⟩
  rw [simple, if_neg hany, if_neg hstring, if_neg hbooleans, if_neg hfunction]

/-- A text that is read is one type from end to end, and either stands for itself or falls
into the parts of a callable. -/
theorem parse_cases {s : Text} {type : LuaType} (h : parse s = .ok type) :
    trim s ≠ [] ∧ afterUnion (trim s) = .ok [] ∧
      (type = simple (trim s) ∨ ∃ parts args returns, callable? (trim s) = some parts ∧
        parts.1.mapM parse = .ok args ∧ parts.2.mapM parse = .ok returns ∧
        type = .callable args returns) := by
  rw [parse_eq] at h
  split at h
  · cases h
  · rename_i hne
    split at h
    · cases h
    · cases h
    · rename_i hwhole
      refine ⟨by simpa using hne, hwhole, ?_⟩
      split at h
      · exact .inl (Except.ok.inj h).symm
      · rename_i argParts returnParts hparts
        obtain ⟨args, hargs, h⟩ := exists_of_bind_ok h
        obtain ⟨returns, hreturns, h⟩ := exists_of_bind_ok h
        exact .inr ⟨_, args, returns, hparts, hargs, hreturns, (Except.ok.inj h).symm⟩

theorem expression_named {name : Text} (h : parse name = .ok (.named name)) :
    Expression name (.named name) := by
  obtain ⟨hne, hwhole, hsimple | ⟨_, _, _, -, -, -, hcallable⟩⟩ := parse_cases h
  · have htrim : trim name = name := eq_of_simple_eq_named hsimple.symm
    rw [htrim] at hne hwhole
    exact ⟨hne, htrim, hwhole, h⟩
  · cases hcallable

theorem expression_callable {args returns : List LuaType}
    (hargs : ∀ t ∈ args, Component t.text ∧ Expression t.text t)
    (hreturns : ∀ t ∈ returns, Component t.text ∧ Expression t.text t) :
    Component (LuaType.callable args returns).text ∧
      Expression (LuaType.callable args returns).text (.callable args returns) := by
  have hargParts : ∀ s ∈ args.map LuaType.text, Component s := by
    rw [List.forall_mem_map]
    exact fun t ht => (hargs t ht).1
  have hreturnParts : ∀ s ∈ returns.map LuaType.text, Component s := by
    rw [List.forall_mem_map]
    exact fun t ht => (hreturns t ht).1
  have hwhole := afterUnion_callableText hargParts hreturnParts
  have hcomponent := component_callableText hargParts hreturnParts
  have htrim : trim (callableText (args.map LuaType.text) (returns.map LuaType.text)) =
      callableText (args.map LuaType.text) (returns.map LuaType.text) := hcomponent.trimmed
  rw [LuaType.text_callable]
  refine ⟨hcomponent, hcomponent.nonempty, hcomponent.trimmed, hwhole, ?_⟩
  rw [parse_eq, htrim, if_neg (by simpa using hcomponent.nonempty), hwhole]
  simp only [callable?_callableText hargParts hreturnParts]
  rw [mapM_map_eq fun t ht => (hargs t ht).2.parsed, ok_bind,
    mapM_map_eq fun t ht => (hreturns t ht).2.parsed, ok_bind]
  rfl

theorem component_of_expression {s : Text} {t : LuaType} (h : Expression s t)
    (hbalanced : Balanced (some ',') s) : Component s :=
  ⟨h.nonempty, h.trimmed, hbalanced, argumentType_eq_self h.whole h.trimmed⟩

theorem parse_simple {s : Text} (hne : trim s ≠ []) (hread : afterUnion (trim s) = .ok [])
    (hcallable : callable? (trim s) = none) : parse s = .ok (simple (trim s)) := by
  rw [parse_eq, if_neg (by simpa using hne), hread]
  simp only [hcallable]

theorem component_word {s : Text} (hne : s ≠ []) (hword : IsWord s) (hall : s.all isNameChar) :
    Component s ∧ Expression s (simple s) := by
  have hname : ∀ c ∈ s, isNameChar c := List.all_eq_true.mp hall
  have hdrop : s.dropWhile isNameChar = [] := List.dropWhile_eq_nil_iff.mpr hname
  have hargs : argumentList? s = none := by
    unfold argumentList?
    split
    · exact absurd (hname '(' (by simp)) (by decide)
    · exact absurd (hname '(' (by simp)) (by decide)
    · rfl
  have hsimple : afterSimple s = .ok [] := by
    rw [afterSimple_of_isNameChar hne fun c hc => hname c (List.mem_of_mem_head? hc),
      afterName_of_ne (by simp [hdrop]), hdrop]
  have hwhole : afterUnion s = .ok [] := by
    apply afterUnion_of_afterPrimary
    rw [afterPrimary_simple hargs, hsimple]
  have hbalanced : Balanced (some ',') s :=
    balanced_of_forall fun c hc => neutral_of_isNameChar (hname c hc)
  have hexpr : Expression s (simple s) := by
    have htrim : trim s = s := hword.trimmed
    have hparse := parse_simple (s := s)
    rw [htrim] at hparse
    exact ⟨hne, hword.trimmed, hwhole, hparse hne hwhole (by rw [callable?, hargs])⟩
  exact ⟨component_of_expression hexpr hbalanced, hexpr⟩

theorem expression_of_part {t : LuaType} (h : Part t) :
    Component t.text ∧ Expression t.text t := by
  induction h with
  | any => exact component_word (by decide) (by decide) rfl
  | string => exact component_word (by decide) (by decide) rfl
  | boolean => exact component_word (by decide) (by decide) rfl
  | function => exact component_word (by decide) (by decide) rfl
  | named hname hinside =>
      have hexpr := expression_named hname
      refine ⟨component_of_expression hexpr ?_, hexpr⟩
      rcases hinside with hquote | hbalanced
      · exact balanced_of_afterUnion hquote hexpr.whole
      · exact hbalanced
  | callable hargs hreturns ihargs ihreturns => exact expression_callable ihargs ihreturns

theorem WellFormed.expression {t : LuaType} (h : WellFormed t) : Expression t.text t := by
  rcases h with hpart | ⟨name, rfl, hname⟩
  · exact (expression_of_part hpart).2
  · exact expression_named hname

theorem WellFormed.split_text {t : LuaType} (h : WellFormed t) :
    split t.text = .ok (t.text, []) := by
  have hexpr := h.expression
  rw [split, hexpr.trimmed.trimStart_eq, hexpr.whole]
  simp [Except.map, trim, trimEnd, dropEndWhile, trimStart]

/-- A type in front of a separate description is cut off right behind its text. -/
theorem WellFormed.split_text_append {t : LuaType} (h : WellFormed t) {details : Text}
    (hdetails : Trimmed details) (hsep : Separate t.text details) :
    split (t.text ++ ' ' :: details) = .ok (t.text, details) := by
  have hexpr := h.expression
  have hstart : trimStart (t.text ++ ' ' :: details) = t.text ++ ' ' :: details := by
    apply trimStart_eq_self_iff.mpr
    rw [List.head?_append_of_ne_nil _ hexpr.nonempty]
    exact hexpr.trimmed.head
  have htrim : trim (' ' :: details) = details := hdetails
  rw [split, hstart, afterUnion_append hexpr.whole hexpr.nonempty hsep]
  simp [Except.map, htrim]

/-! ## Whole trees -/

/-- The types inside a type that are not taken apart any further. -/
def leaves : LuaType → List LuaType
  | .callable args returns => args.flatMap leaves ++ returns.flatMap leaves
  | leaf => [leaf]

theorem part_of_leaves (t : LuaType)
    (hnames : ∀ name, .named name ∈ leaves t → Unquoted name ∧ parse name = .ok (.named name))
    (hids : ∀ id, .function id ∈ leaves t → id = "function".toList) : Part t := by
  match t with
  | .any => exact .any
  | .string => exact .string
  | .boolean => exact .boolean
  | .named name =>
      obtain ⟨hquote, hname⟩ := hnames name (by simp [leaves])
      exact .named hname (Or.inl hquote)
  | .function id =>
      rw [hids id (by simp [leaves])]
      exact .function
  | .callable args returns =>
      have hleaves : leaves (.callable args returns) =
          args.flatMap leaves ++ returns.flatMap leaves := by
        rw [leaves]
      have hargs : ∀ a ∈ args, ∀ leaf ∈ leaves a, leaf ∈ leaves (.callable args returns) := by
        intro a ha leaf hleaf
        rw [hleaves, List.mem_append]
        exact Or.inl (List.mem_flatMap.mpr ⟨a, ha, hleaf⟩)
      have hreturns : ∀ r ∈ returns, ∀ leaf ∈ leaves r,
          leaf ∈ leaves (.callable args returns) := by
        intro r hr leaf hleaf
        rw [hleaves, List.mem_append]
        exact Or.inr (List.mem_flatMap.mpr ⟨r, hr, hleaf⟩)
      refine .callable (fun a ha => ?_) fun r hr => ?_
      · exact part_of_leaves a (fun name hname => hnames name (hargs a ha _ hname))
          fun id hid => hids id (hargs a ha _ hid)
      · exact part_of_leaves r (fun name hname => hnames name (hreturns r hr _ hname))
          fun id hid => hids id (hreturns r hr _ hid)

/-- A type of any depth and width is read back from its text. -/
theorem parse_text (t : LuaType)
    (hnames : ∀ name, .named name ∈ leaves t → Unquoted name ∧ parse name = .ok (.named name))
    (hids : ∀ id, .function id ∈ leaves t → id = "function".toList) :
    parse t.text = .ok t :=
  (expression_of_part (part_of_leaves t hnames hids)).2.parsed

/-- A callable that takes another one and returns two types. -/
def listenerType : LuaType :=
  .callable
    [.callable [.named "number[]|nil".toList, .callable [] [.any]] [.boolean, .string],
      .named "table<string, (a, b)>".toList]
    [.function "function".toList, .named "fun(x: any): any?|ui.Widget".toList]

theorem leaves_listenerType :
    leaves listenerType =
      [.named "number[]|nil".toList, .any, .boolean, .string,
        .named "table<string, (a, b)>".toList, .function "function".toList,
        .named "fun(x: any): any?|ui.Widget".toList] := by
  simp [listenerType, leaves]

theorem parse_listenerType :
    (∀ name, .named name ∈ leaves listenerType →
        Unquoted name ∧ parse name = .ok (.named name)) ∧
      (∀ id, .function id ∈ leaves listenerType → id = "function".toList) ∧
        parse listenerType.text = .ok listenerType := by
  have hname : ∀ name ∈ ["number[]|nil".toList, "table<string, (a, b)>".toList,
      "fun(x: any): any?|ui.Widget".toList],
      Unquoted name ∧ trim name = name ∧ name ≠ [] ∧ afterUnion name = .ok [] ∧
        callable? name = none ∧ name ∉ builtinNames := by
    decide +kernel
  have hnames : ∀ name, .named name ∈ leaves listenerType →
      Unquoted name ∧ parse name = .ok (.named name) := by
    intro name hmem
    rw [leaves_listenerType] at hmem
    obtain ⟨hquote, htrim, hne, hread, hnone, hbuiltin⟩ := hname name (by simpa using hmem)
    refine ⟨hquote, ?_⟩
    rw [← htrim] at hne hread hnone
    rw [parse_simple hne hread hnone, htrim, simple_eq_named hbuiltin]
  have hids : ∀ id, .function id ∈ leaves listenerType → id = "function".toList := by
    intro id hmem
    rw [leaves_listenerType] at hmem
    simpa using hmem
  exact ⟨hnames, hids, parse_text listenerType hnames hids⟩

end TypeExpr
end ApiManual
