import ApiManual.TypeExpr.Bracket
import ApiManual.TypeExpr.Error

/-!
# The extent of a type expression

A type expression stands at the front of a free text, and nothing marks its end but
its own grammar.  A *union* is a sequence of suffixed primaries with `|` between them;
a *suffixed primary* carries any number of `[]` and `?`; a *primary* is a callable, a
bracketed group, a quoted literal, or a name with an optional group in angle brackets.
Each function answers the text behind the expression it reads.
-/

namespace ApiManual.TypeExpr

/-- Letters, digits, `_`, the dot of a qualified name, and everything beyond ASCII. -/
def isNameChar (c : Char) : Bool :=
  c.isAlphanum || c = '_' || c = '.' || 0x80 ≤ c.toNat

/-- The text from the argument list on, when a callable stands in front. -/
def argumentList? : Text → Option Text
  | 'f' :: 'u' :: 'n' :: '(' :: rest => some ('(' :: rest)
  | 'f' :: 'u' :: 'n' :: ' ' :: '(' :: rest => some ('(' :: rest)
  | _ => none

/-- The text behind the colon that introduces the returns of a callable. -/
def returnPart? (s : Text) : Option Text :=
  match Text.skipBlanks s with
  | ':' :: rest => some (Text.skipBlanks rest)
  | _ => none

/-- The text behind the group at whose bracket `s` begins. -/
def afterGroup (s : Text) : Except TypeError Text :=
  match cutAtClose 0 s with
  | some (_, behind) => .ok behind
  | none => .error .unbalanced

/-- The text behind the closing `quote`. -/
def afterLiteral (quote : Char) (s : Text) : Except TypeError Text :=
  match s.dropWhile (· ≠ quote) with
  | _ :: behind => .ok behind
  | [] => .error .unterminated

/-- The text behind a name and its group in angle brackets. -/
def afterName (s : Text) : Except TypeError Text :=
  match s.dropWhile isNameChar with
  | '<' :: rest => afterGroup ('<' :: rest)
  | rest => .ok rest

/-- The text behind a primary that is no callable. -/
def afterSimple : Text → Except TypeError Text
  | [] => .error .missing
  | c :: rest =>
    if c = '(' || c = '\x7b' then
      afterGroup (c :: rest)
    else if c = '"' || c = '\'' then
      afterLiteral c rest
    else if isNameChar c then
      afterName (c :: rest)
    else
      .error (.unexpected [c])

def dropSuffixes : Text → Text
  | '[' :: ']' :: rest => dropSuffixes rest
  | '?' :: rest => dropSuffixes rest
  | rest => rest

theorem length_argumentList? {s args : Text} (h : argumentList? s = some args) :
    args.length + 3 ≤ s.length := by
  unfold argumentList? at h
  split at h <;> simp_all

theorem length_returnPart? {s ret : Text} (h : returnPart? s = some ret) :
    ret.length < s.length := by
  unfold returnPart? at h
  split at h
  · rename_i rest heq
    cases h
    have hle := Text.length_skipBlanks_le s
    have hrest := Text.length_skipBlanks_le rest
    rw [heq] at hle
    simp only [List.length_cons] at hle
    omega
  · cases h

theorem length_afterGroup {s rest : Text} (h : afterGroup s = .ok rest) :
    rest.length < s.length := by
  unfold afterGroup at h
  split at h
  · rename_i inside behind hcut
    cases h
    have := length_cutAtClose hcut
    omega
  · cases h

/-- The text behind a primary.  The returns of a callable are a group or one suffixed
primary, never a union. -/
def afterPrimary (s : Text) : Except TypeError Text :=
  match _hargs : argumentList? s with
  | none => afterSimple s
  | some args =>
    match _hgroup : afterGroup args with
    | .error e => .error e
    | .ok rest =>
      match _hret : returnPart? rest with
      | none => .ok rest
      | some ret =>
        if ret.head? = some '(' then
          afterGroup ret
        else
          (afterPrimary ret).map dropSuffixes
termination_by s.length
decreasing_by
  have h₁ := length_argumentList? _hargs
  have h₂ := length_afterGroup _hgroup
  have h₃ := length_returnPart? _hret
  omega

/-- The text behind a suffixed primary. -/
def afterSuffixed (s : Text) : Except TypeError Text :=
  (afterPrimary s).map dropSuffixes

theorem length_dropSuffixes_le (s : Text) : (dropSuffixes s).length ≤ s.length := by
  fun_induction dropSuffixes s with
  | case1 rest ih => simp only [List.length_cons]; omega
  | case2 rest ih => simp only [List.length_cons]; omega
  | case3 rest _ _ => exact Nat.le_refl _

theorem length_afterSimple {s rest : Text} (h : afterSimple s = .ok rest) :
    rest.length < s.length := by
  unfold afterSimple at h
  split at h
  · cases h
  · rename_i c tail
    split at h
    · exact length_afterGroup h
    · split at h
      · unfold afterLiteral at h
        split at h
        · rename_i quote behind heq
          cases h
          have := Text.length_dropWhile_le (· ≠ c) tail
          simp_all only [List.length_cons]
          omega
        · cases h
      · split at h
        · rename_i hname
          unfold afterName at h
          have hle := Text.length_dropWhile_le isNameChar tail
          simp only [List.dropWhile_cons, hname, if_true] at h
          split at h
          · rename_i heq
            have := length_afterGroup h
            rw [heq] at hle
            simp only [List.length_cons] at *
            omega
          · cases h
            simp only [List.length_cons]
            omega
        · cases h

theorem length_afterPrimary {s rest : Text} (h : afterPrimary s = .ok rest) :
    rest.length < s.length := by
  fun_induction afterPrimary s generalizing rest with
  | case1 s hargs => exact length_afterSimple h
  | case2 s args hargs e hgroup => cases h
  | case3 s args hargs behind hgroup hret =>
    cases h
    have h₁ := length_argumentList? hargs
    have h₂ := length_afterGroup hgroup
    omega
  | case4 s args hargs behind hgroup ret hret hopen =>
    have h₁ := length_argumentList? hargs
    have h₂ := length_afterGroup hgroup
    have h₃ := length_returnPart? hret
    have h₄ := length_afterGroup h
    omega
  | case5 s args hargs behind hgroup ret hret hopen ih =>
    have h₁ := length_argumentList? hargs
    have h₂ := length_afterGroup hgroup
    have h₃ := length_returnPart? hret
    cases hp : afterPrimary ret with
    | error e => simp [hp, Except.map] at h
    | ok tail =>
      simp only [hp, Except.map, Except.ok.injEq] at h
      have h₄ := ih hp
      have h₅ := length_dropSuffixes_le tail
      rw [h] at h₅
      omega

theorem length_afterSuffixed {s rest : Text} (h : afterSuffixed s = .ok rest) :
    rest.length < s.length := by
  unfold afterSuffixed at h
  cases hp : afterPrimary s with
  | error e => simp [hp, Except.map] at h
  | ok tail =>
    simp only [hp, Except.map, Except.ok.injEq] at h
    have h₁ := length_afterPrimary hp
    have h₂ := length_dropSuffixes_le tail
    rw [h] at h₂
    omega

/-- The text behind the alternatives that follow a suffixed primary.  Blanks belong to
the expression only where a `|` follows them. -/
def afterAlternatives (s : Text) : Except TypeError Text :=
  match _hbar : Text.skipBlanks s with
  | '|' :: rest =>
    match _hnext : afterSuffixed (Text.skipBlanks rest) with
    | .error e => .error e
    | .ok behind => afterAlternatives behind
  | _ => .ok s
termination_by s.length
decreasing_by
  have h₁ := Text.length_skipBlanks_le s
  have h₂ := Text.length_skipBlanks_le rest
  have h₃ := length_afterSuffixed _hnext
  rw [_hbar] at h₁
  simp only [List.length_cons] at h₁
  omega

/-- The text behind a union.  The empty text is taken for an empty union. -/
def afterUnion (s : Text) : Except TypeError Text :=
  if s.isEmpty then .ok [] else (afterSuffixed s).bind afterAlternatives

end ApiManual.TypeExpr
