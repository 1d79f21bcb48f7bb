import ApiManual.Proofs.TypeExpr.CallableParts
import ApiManual.Proofs.Unicode.Classes

/-!
# Splitting a type off a text

What is split off the front of a text is read again in the same way when nothing stands
behind it: a derivation of a type never looks at the text it leaves, except to see that a
name goes no further.  So a type that was split off is refused afterwards only if it is a
callable with a part that is refused.  A text that does not begin like a type is refused as
a whole, and only a blank one has an empty type in front.
-/

namespace ApiManual
namespace TypeExpr

open Text

/-! ## Cutting off what is left of a text -/

theorem NameRun.cut {run t u : Text} (h : NameRun run (t ++ u)) : NameRun run t where
  nonempty := h.nonempty
  names := h.names
  maximal := by
    intro c hc
    apply h.maximal
    rw [List.head?_append, Option.mem_def.mp hc]
    rfl

theorem CallHead.cut {s args t u : Text} (h : CallHead s args (t ++ u)) :
    ∃ front, s = front ++ u ∧ CallHead front args t := by
  obtain ⟨hgap, hgroup⟩ := h
  rename_i gap group
  exact ⟨"fun".toList ++ (gap ++ (group ++ t)), by simp, .mk hgap hgroup⟩

theorem CallHead.cut_grouped {s args before after group t u : Text}
    (h : CallHead s args (before ++ ':' :: (after ++ (group ++ (t ++ u))))) :
    ∃ front, s = front ++ u ∧ CallHead front args (before ++ ':' :: (after ++ (group ++ t))) := by
  apply CallHead.cut
  simpa using h

theorem head?_append_ne {s u : Text} {c : Char} (h : (s ++ u).head? ≠ some c) :
    s.head? ≠ some c := by
  intro hhead
  rw [List.head?_append, hhead] at h
  exact h rfl

mutual

/-- A primary needs nothing of the text behind it. -/
theorem Primary.cut {s rest : Text} : Primary s rest → ∀ t u, rest = t ++ u →
    ∃ front, s = front ++ u ∧ Primary front t
  | .callable h, t, u, hrest => by
      obtain ⟨front, hs, hfront⟩ := h.cut t u hrest
      exact ⟨front, hs, .callable hfront⟩
  | @Primary.round group _ h, t, u, hrest =>
      ⟨group ++ t, by simp [hrest], .round h⟩
  | @Primary.curly group _ h, t, u, hrest =>
      ⟨group ++ t, by simp [hrest], .curly h⟩
  | @Primary.literal quote inside _ hquote hinside, t, u, hrest =>
      ⟨quote :: (inside ++ quote :: t), by simp [hrest], .literal hquote hinside⟩
  | @Primary.name run _ h, t, u, hrest =>
      ⟨run ++ t, by simp [hrest], .name (NameRun.cut (hrest ▸ h))⟩
  | @Primary.applied run group _ h hgroup, t, u, hrest => by
      rw [hrest, ← List.append_assoc] at h
      exact ⟨run ++ (group ++ t), by simp [hrest], .applied h.cut hgroup⟩

theorem Callable.cut {s args returns rest : Text} : Callable s args returns rest →
    ∀ t u, rest = t ++ u → ∃ front, s = front ++ u ∧ Callable front args returns t
  | .bare h, t, u, hrest => by
      obtain ⟨front, hs, hfront⟩ := CallHead.cut (hrest ▸ h)
      exact ⟨front, hs, .bare hfront⟩
  | .grouped h hbefore hafter hgroup, t, u, hrest => by
      obtain ⟨front, hs, hfront⟩ := CallHead.cut_grouped (hrest ▸ h)
      exact ⟨front, hs, .grouped hfront hbefore hafter hgroup⟩
  | .single h hbefore hafter hret hopen, t, u, hrest => by
      obtain ⟨front, hs, hfront⟩ := CallHead.cut_grouped (hrest ▸ h)
      obtain ⟨front', hret', hsuffixed⟩ := hret.cut t u hrest
      rw [hrest, ← List.append_assoc] at hret' hopen
      rw [← List.append_cancel_right hret'] at hsuffixed
      exact ⟨front, hs, .single hfront hbefore hafter hsuffixed (head?_append_ne hopen)⟩

theorem Postfix.cut {s rest : Text} : Postfix s rest → ∀ t u, rest = t ++ u →
    ∃ front, s = front ++ u ∧ Postfix front t
  | .primary h, t, u, hrest => by
      obtain ⟨front, hs, hfront⟩ := h.cut t u hrest
      exact ⟨front, hs, .primary hfront⟩
  | .brackets h, t, u, hrest => by
      obtain ⟨front, hs, hfront⟩ := h.cut ('[' :: ']' :: t) u (by rw [hrest]; rfl)
      exact ⟨front, hs, .brackets hfront⟩
  | .mark h, t, u, hrest => by
      obtain ⟨front, hs, hfront⟩ := h.cut ('?' :: t) u (by rw [hrest]; rfl)
      exact ⟨front, hs, .mark hfront⟩

end

theorem Union.cut {s t u rest : Text} (h : Union s rest) (hrest : rest = t ++ u) :
    ∃ front, s = front ++ u ∧ Union front t := by
  induction h with
  | single h =>
      obtain ⟨front, hs, hfront⟩ := h.cut t u hrest
      exact ⟨front, hs, .single hfront⟩
  | @more s before after next rest h hbefore hafter hnext ih =>
      obtain ⟨next', hnext', hunion⟩ := ih hrest
      have hbar : before ++ '|' :: (after ++ next) =
          (before ++ '|' :: (after ++ next')) ++ u := by
        simp [hnext']
      obtain ⟨front, hs, hfront⟩ := h.cut _ u hbar
      exact ⟨front, hs, .more hfront hbefore hafter hunion⟩

/-- What the scanner takes off a text it takes whole where it stands alone. -/
theorem afterUnion_front {front rest : Text} (h : afterUnion (front ++ rest) = .ok rest) :
    afterUnion front = .ok [] := by
  by_cases hfront : front = []
  · rw [hfront]
    rfl
  · have hne : front ++ rest ≠ [] := by simp [hfront]
    obtain ⟨front', hcut, hunion⟩ := (union_of_afterUnion hne h).cut (List.nil_append rest).symm
    rw [← List.append_cancel_right hcut] at hunion
    exact (afterUnion_eq_ok_iff hfront).mpr hunion

/-! ## The last character of a type -/

/-- No ASCII whitespace. -/
def IsVisible (c : Char) : Prop :=
  isWhitespace c → 0x80 ≤ c.toNat

/-- What stands in front of `rest` ends in a visible character. -/
def EndsVisibly (s rest : Text) : Prop :=
  ∃ front c, s = front ++ c :: rest ∧ IsVisible c

theorem EndsVisibly.of_suffix {s t rest : Text} (h : EndsVisibly t rest) (hsuffix : t <:+ s) :
    EndsVisibly s rest := by
  obtain ⟨front, c, rfl, hc⟩ := h
  obtain ⟨start, rfl⟩ := hsuffix
  exact ⟨start ++ front, c, by simp, hc⟩

theorem EndsVisibly.of_concat {front : Text} {c : Char} (hc : IsVisible c) (rest : Text) :
    EndsVisibly ((front ++ [c]) ++ rest) rest :=
  ⟨front, c, by simp, hc⟩

theorem openBrackets_concat_whitespace {c : Char} (hc : isWhitespace c) (s : Text) :
    openBrackets (s ++ [c]) = openBrackets s := by
  have hneutral := neutral_of_class hc rfl
  simp [openBrackets, hneutral.1, hneutral.2.1]

theorem Group.endsVisibly {opening : Char} {group : Text} (h : Group opening group)
    (hopen : isOpening opening) (rest : Text) : EndsVisibly (group ++ rest) rest := by
  obtain ⟨inner, close, rfl, hcloses⟩ := h.closesBehind hopen
  have hclose : IsVisible close := by
    intro hspace
    obtain ⟨close', heq, hclosed, hfirst⟩ := hcloses []
    cases List.append_cancel_left heq
    rw [openBrackets_concat_whitespace hspace] at hclosed
    exact absurd hclosed (hfirst inner List.prefix_rfl)
  rw [← List.cons_append]
  exact .of_concat hclose rest

theorem isVisible_of_isNameChar {c : Char} (h : isNameChar c) : IsVisible c := by
  intro hspace
  by_contra hascii
  have hcodes : ∀ n ∈ Unicode.whitespaceCodes, n < 0x80 → isNameChar (Char.ofNat n) = false := by
    decide
  have hname := hcodes c.toNat (Unicode.toNat_mem_whitespaceCodes hspace) (by omega)
  rw [Char.ofNat_toNat, h] at hname
  cases hname

theorem NameRun.endsVisibly {run rest : Text} (h : NameRun run rest) :
    EndsVisibly (run ++ rest) rest := by
  obtain hnil | ⟨front, c, rfl⟩ := List.eq_nil_or_concat' run
  · exact absurd hnil h.nonempty
  · have hname : isNameChar c := h.names c (by simp)
    exact .of_concat (isVisible_of_isNameChar hname) rest

theorem CallHead.endsVisibly {s args rest : Text} (h : CallHead s args rest) :
    EndsVisibly s rest := by
  obtain ⟨hgap, hgroup⟩ := h
  rename_i gap group
  exact (hgroup.endsVisibly rfl rest).of_suffix ⟨"fun".toList ++ gap, by simp⟩

theorem isVisible_of_eq_false {c : Char} (h : isWhitespace c = false) : IsVisible c := by
  intro hspace
  rw [h] at hspace
  cases hspace

mutual

theorem Primary.endsVisibly {s rest : Text} : Primary s rest → EndsVisibly s rest
  | .callable h => h.endsVisibly
  | .round h => h.endsVisibly rfl _
  | .curly h => h.endsVisibly rfl _
  | @Primary.literal quote inside _ hquote _ => by
      have hvisible : IsVisible quote := by
        apply isVisible_of_eq_false
        cases hquote with
        | inl hdouble => rw [hdouble]; rfl
        | inr hsingle => rw [hsingle]; rfl
      exact ⟨quote :: inside, quote, rfl, hvisible⟩
  | .name h => h.endsVisibly
  | @Primary.applied run _ _ _ hgroup =>
      (hgroup.endsVisibly rfl _).of_suffix (List.suffix_append run _)

theorem Callable.endsVisibly {s args returns rest : Text} :
    Callable s args returns rest → EndsVisibly s rest
  | .bare h => h.endsVisibly
  | @Callable.grouped _ _ before after _ _ h _ _ hgroup => by
      apply (hgroup.endsVisibly rfl _).of_suffix
      exact .trans ⟨before ++ ':' :: after, by simp⟩ h.suffix
  | @Callable.single _ _ before after _ _ h _ _ hret _ => by
      apply hret.endsVisibly.of_suffix
      exact .trans ⟨before ++ ':' :: after, by simp⟩ h.suffix

theorem Postfix.endsVisibly {s rest : Text} : Postfix s rest → EndsVisibly s rest
  | .primary h => h.endsVisibly
  | .brackets h => by
      obtain ⟨front, c, hs, -⟩ := h.endsVisibly
      exact ⟨front ++ [c, '['], ']', by simp [hs], isVisible_of_eq_false rfl⟩
  | .mark h => by
      obtain ⟨front, c, hs, -⟩ := h.endsVisibly
      exact ⟨front ++ [c], '?', by simp [hs], isVisible_of_eq_false rfl⟩

end

theorem Union.endsVisibly {s rest : Text} (h : Union s rest) : EndsVisibly s rest := by
  induction h with
  | single h => exact h.endsVisibly
  | @more s before after next rest h _ _ _ ih =>
      obtain ⟨front, c, hs, -⟩ := h.endsVisibly
      apply ih.of_suffix
      exact ⟨front ++ c :: (before ++ '|' :: after), by simp [hs]⟩

/-! ## Types in front of a text -/

theorem exists_of_split {s type rest : Text} (h : split s = .ok (type, rest)) :
    ∃ behind, trimStart s = type ++ behind ∧ afterUnion (trimStart s) = .ok behind ∧
      rest = trim behind := by
  obtain ⟨behind, hread, hparts⟩ := exists_of_map_ok h
  obtain ⟨front, hfront⟩ := passing_suffix.afterUnion hread
  rw [← hfront, List.length_append, Nat.add_sub_cancel, List.take_left, Prod.mk.injEq] at hparts
  exact ⟨behind, by rw [← hfront, hparts.1], hread, hparts.2.symm⟩

section

variable {s type behind : Text} (hs : trimStart s = type ++ behind)
  (hread : afterUnion (trimStart s) = .ok behind)

include hs

theorem head?_type : ∀ c ∈ type.head?, isWhitespace c = false := by
  intro c hc
  have hhead : c ∈ (trimStart s).head? := by
    rw [hs, List.head?_append, Option.mem_def.mp hc]
    rfl
  exact head?_dropWhile_of_mem hhead

include hread

theorem afterUnion_type : afterUnion type = .ok [] := by
  rw [hs] at hread
  exact afterUnion_front hread

theorem split_type : split type = .ok (type, []) := by
  have hstart : trimStart type = type := trimStart_eq_self_iff.mpr (head?_type hs)
  have hnil : trim [] = [] := rfl
  rw [split, hstart, afterUnion_type hs hread]
  simp [Except.map, hnil]

theorem trimmed_type (hascii : ∀ c ∈ s, isWhitespace c → c.toNat < 0x80) : Trimmed type := by
  apply trimmed_of_edges (head?_type hs)
  intro c hc
  have hne : type ≠ [] := by
    intro hnil
    rw [hnil] at hc
    cases hc
  obtain ⟨front, d, htype, hvisible⟩ :=
    ((afterUnion_eq_ok_iff hne).mp (afterUnion_type hs hread)).endsVisibly
  rw [htype, List.getLast?_concat, Option.mem_some_iff] at hc
  subst hc
  cases hspace : isWhitespace d with
  | false => rfl
  | true =>
      have hmem : d ∈ trimStart s := by simp [hs, htype]
      have hle := hascii d ((List.dropWhile_suffix _).subset hmem) hspace
      have hge := hvisible hspace
      omega

end

theorem parse_of_whole {s : Text} (hne : s ≠ []) (htrim : Trimmed s)
    (hread : afterUnion s = .ok []) (hcallable : ¬ ∃ args returns, Callable s args returns []) :
    parse s = .ok (simple s) := by
  have hs : trim s = s := htrim
  have hparse := @parse_of_union s
  rw [hs] at hparse
  exact hparse hne ((afterUnion_eq_ok_iff hne).mp hread) hcallable

/-- A type that was split off is read to its end when it stands alone.  Where all whitespace
is ASCII it is then a type, unless it is a callable with a part that is none. -/
theorem split_then_parse {s type rest : Text} (h : split s = .ok (type, rest)) :
    (∃ before after, trimStart s = type ++ (before ++ (rest ++ after)) ∧
      isBlankLine before ∧ isBlankLine after) ∧
    Trimmed rest ∧
    split type = .ok (type, []) ∧
    ((∀ c ∈ s, isWhitespace c → c.toNat < 0x80) → type ≠ [] →
      ((¬ ∃ args returns, Callable type args returns []) → parse type = .ok (simple type)) ∧
      ∀ e, parse type = .error e → ∃ args returns, Callable type args returns [] ∧
        ∃ part, (part ∈ (components args).map argumentType ∨ part ∈ components returns) ∧
          part.length < type.length ∧ parse part = .error e) := by
  obtain ⟨behind, hs, hread, rfl⟩ := exists_of_split h
  refine ⟨?_, trimmed_trim behind, split_type hs hread, ?_⟩
  · obtain ⟨before, after, hbehind, hbefore, hafter⟩ := exists_blank_around_trim behind
    exact ⟨before, after, by rw [hs, ← hbehind], hbefore, hafter⟩
  · intro hascii hne
    have htrim := trimmed_type hs hread hascii
    have hwhole := parse_of_whole hne htrim (afterUnion_type hs hread)
    refine ⟨hwhole, ?_⟩
    intro e he
    by_cases hcallable : ∃ args returns, Callable type args returns []
    · obtain ⟨args, returns, hcallable⟩ := hcallable
      exact ⟨args, returns, hcallable,
        exists_part_of_parse_error htrim (hcallable.callable?_eq htrim) he⟩
    · rw [hwhole hcallable] at he
      cases he

def callbackText : Text :=
  "  fun(on: boolean)|nil  Called back. \t".toList

theorem split_then_parse_callback :
    let type := "fun(on: boolean)|nil".toList
    let rest := "Called back.".toList
    split callbackText = .ok (type, rest) ∧
      (∃ before after, trimStart callbackText = type ++ (before ++ (rest ++ after)) ∧
        isBlankLine before ∧ isBlankLine after) ∧
      Trimmed rest ∧ split type = .ok (type, []) ∧
      (∀ c ∈ callbackText, isWhitespace c → c.toNat < 0x80) ∧
      (¬ ∃ args returns, Callable type args returns []) ∧
      parse type = .ok (simple type) := by
  intro type rest
  have hsplit : split callbackText = .ok (type, rest) := by decide +kernel
  have hall : callbackText.all (·.toNat < 0x80) := by decide
  have hascii : ∀ c ∈ callbackText, isWhitespace c → c.toNat < 0x80 := by
    intro c hc _
    exact of_decide_eq_true (List.all_eq_true.mp hall c hc)
  have htrim : Trimmed type := by decide
  have hnone : callable? type = none := by decide +kernel
  have hcallable : ¬ ∃ args returns, Callable type args returns [] := by
    intro hexists
    obtain ⟨args, returns, hcallable⟩ := hexists
    rw [hcallable.callable?_eq htrim] at hnone
    cases hnone
  obtain ⟨hparts, hrest, hagain, hparse⟩ := split_then_parse hsplit
  exact ⟨hsplit, hparts, hrest, hagain, hascii, hcallable,
    (hparse hascii (by decide)).1 hcallable⟩

/-! ## Texts that do not begin with a type -/

/-- The characters a type can begin with. -/
def startsType (c : Char) : Bool :=
  isNameChar c || ['(', '\x7b', '"', '\''].contains c

section

variable {c : Char} (hc : startsType c = false)

include hc

theorem ne_of_startsType {d : Char} (hd : startsType d) : c ≠ d := by
  intro heq
  rw [heq, hd] at hc
  cases hc

theorem afterSimple_of_startsType (s : Text) :
    afterSimple (c :: s) = .error (.unexpected [c]) := by
  have hname : ¬ isNameChar c := by
    intro hname
    simp [startsType, hname] at hc
  have hround : c ≠ '(' := ne_of_startsType hc rfl
  have hcurly : c ≠ '\x7b' := ne_of_startsType hc rfl
  have hdouble : c ≠ '"' := ne_of_startsType hc rfl
  have hsingle : c ≠ '\'' := ne_of_startsType hc rfl
  rw [afterSimple, if_neg (by simp [hround, hcurly]), if_neg (by simp [hdouble, hsingle]),
    if_neg hname]

theorem split_of_startsType {s rest : Text} (hs : trimStart s = c :: rest) :
    split s = .error (.unexpected [c]) := by
  have hlist : argumentList? (c :: rest) = none :=
    argumentList?_of_ne (ne_of_startsType hc rfl) rest
  have hprimary : afterPrimary (c :: rest) = .error (.unexpected [c]) := by
    rw [afterPrimary_simple hlist, afterSimple_of_startsType hc]
  rw [split, hs, afterUnion, if_neg (by simp), afterSuffixed, hprimary]
  rfl

end

theorem afterUnion_ne_self {s : Text} (hne : s ≠ []) : afterUnion s ≠ .ok s := by
  intro h
  rw [afterUnion, if_neg (by simpa using hne)] at h
  obtain ⟨behind, hfirst, hrest⟩ := exists_of_bind_ok h
  have hlt := length_afterSuffixed hfirst
  have hle := (passing_suffix.afterAlternatives hrest).length_le
  omega

/-- A type is missing only where there is nothing to read. -/
theorem split_eq_nil_iff {s rest : Text} :
    split s = .ok ([], rest) ↔ isBlankLine s ∧ rest = [] := by
  have hstart : trimStart s = [] ↔ isBlankLine s := by
    rw [trimStart, List.dropWhile_eq_nil_iff, isBlankLine, List.all_eq_true]
  rw [← hstart]
  constructor
  · intro h
    obtain ⟨behind, hs, hread, hrest⟩ := exists_of_split h
    rw [List.nil_append] at hs
    rw [← hs] at hread hrest
    have hnil : trimStart s = [] := by
      by_contra hne
      exact afterUnion_ne_self hne hread
    rw [hnil] at hrest
    exact ⟨hnil, hrest⟩
  · intro h
    rw [split, h.1, h.2]
    rfl

end TypeExpr
end ApiManual
