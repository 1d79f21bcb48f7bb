import ApiManual.DocComment.Declaration
import ApiManual.DocComment.Line
import ApiManual.Proofs.Text.Padding

/-!
# Padded lines of source

The reader of lines drops the blanks in front of a line.  Blanks behind it stay in the
text of a doc line, and are lost everywhere else.
-/

namespace ApiManual
namespace DocComment

open Text

/-! ## Parts of a declaration -/

/-- Readings of a line and of the padded line give parts with the same relation. -/
def Steady {α : Type} (R : α → α → Prop) (reader : Text → Option α) : Prop :=
  reader [] = none ∧ ∀ {s s' : Text}, Padded s s' → Option.Rel R (reader s) (reader s')

/-- A part with the text behind it, which may be padded. -/
def SameCut (x y : Text × Text) : Prop :=
  x.1 = y.1 ∧ Padded x.2 y.2

theorem rel_bind {α β : Type} {R : α → α → Prop} {S : β → β → Prop} {x y : Option α}
    {f g : α → Option β} (h : Option.Rel R x y) (hfg : ∀ {a b}, R a b → Option.Rel S (f a) (g b)) :
    Option.Rel S (x.bind f) (y.bind g) := by
  cases h with
  | some hab => exact hfg hab
  | none => exact .none

theorem rel_refl {α : Type} (x : Option α) : Option.Rel Eq x x := by
  cases x with
  | none => exact .none
  | some a => exact .some rfl

theorem eq_of_rel {α : Type} {x y : Option α} (h : Option.Rel Eq x y) : x = y := by
  cases h with
  | some hab => rw [hab]
  | none => rfl

section

variable {s s' : Text}

/-- A word that ends the line becomes a keyword with nothing behind it. -/
theorem keyword?_padded {word : Text} (hword : ∀ c ∈ word, isBlank c = false)
    (h : Padded s s') :
    Option.Rel Padded (keyword? word s) (keyword? word s') ∨
      keyword? word s = none ∧ keyword? word s' = some [] := by
  unfold keyword?
  have hcut := h.dropPrefix? hword
  generalize dropPrefix? word s = cut at hcut ⊢
  generalize dropPrefix? word s' = cut' at hcut ⊢
  cases hcut with
  | none => exact .inl .none
  | @some rest rest' hrest =>
      cases hrest with
      | blanks hpadding =>
          cases rest' with
          | nil => exact .inl .none
          | cons c padding =>
              rw [List.forall_mem_cons] at hpadding
              have hnil : skipBlanks padding = [] := List.dropWhile_eq_nil_iff.mpr hpadding.2
              exact .inr ⟨rfl, by simp [hpadding.1, hnil]⟩
      | cons c hrest =>
          left
          dsimp only
          split
          · exact .some hrest.skipBlanks
          · exact .none

theorem bind_keyword?_padded {α : Type} {R : α → α → Prop} {reader : Text → Option α}
    (hreader : Steady R reader) {word : Text} (hword : ∀ c ∈ word, isBlank c = false)
    (h : Padded s s') :
    Option.Rel R ((keyword? word s).bind reader) ((keyword? word s').bind reader) := by
  rcases keyword?_padded hword h with hrel | ⟨hnone, hnil⟩
  · exact rel_bind hrel hreader.2
  · rw [hnone, hnil, Option.bind_none, Option.bind_some, hreader.1]
    exact .none

theorem startsIdentifier_padded (h : Padded s s') : startsIdentifier s = startsIdentifier s' := by
  cases h with
  | cons c _ => rfl
  | blanks hpadding =>
      cases s' with
      | nil => rfl
      | cons c padding =>
          have hc : isBlank c := hpadding c List.mem_cons_self
          have hstart : startsIdentifier (c :: padding) = false := by
            simp only [isBlank, Bool.or_eq_true, decide_eq_true_eq] at hc
            rcases hc with rfl | rfl <;> rfl
          exact hstart.symm

theorem cutPath_padding (isSeparator : Char → Bool) {padding : Text}
    (h : ∀ c ∈ padding, isBlank c) : cutPath isSeparator padding = ([], padding) := by
  cases padding with
  | nil => rfl
  | cons c padding =>
      rw [List.forall_mem_cons] at h
      have hstart : startsIdentifier padding = false := (startsIdentifier_padded (.blanks h.2)).symm
      have hword : Unicode.isWord c = false := by
        have hc := h.1
        simp only [isBlank, Bool.or_eq_true, decide_eq_true_eq] at hc
        rcases hc with rfl | rfl <;> rfl
      rw [cutPath, if_neg (by simp [hstart, hword])]

theorem cutPath_padded (isSeparator : Char → Bool) (h : Padded s s') :
    SameCut (cutPath isSeparator s) (cutPath isSeparator s') := by
  induction h with
  | blanks hpadding =>
      rw [cutPath_padding isSeparator hpadding]
      exact ⟨rfl, .blanks hpadding⟩
  | cons c hs ih =>
      rw [cutPath, cutPath, ← startsIdentifier_padded hs]
      split
      · exact ⟨congrArg (c :: ·) ih.1, ih.2⟩
      · exact ⟨rfl, .cons c hs⟩

theorem path?_padded (isSeparator : Char → Bool) (h : Padded s s') :
    Option.Rel SameCut (path? isSeparator s) (path? isSeparator s') := by
  rw [path?, path?, startsIdentifier_padded h]
  split
  · exact .some (cutPath_padded isSeparator h)
  · exact .none

theorem takeWhile_padded {c : Char} (h : Padded s s') (hmem : c ∈ s) :
    s.takeWhile (· ≠ c) = s'.takeWhile (· ≠ c) := by
  induction h with
  | blanks _ => cases hmem
  | cons d _ ih =>
      by_cases hd : d = c
      · simp [hd]
      · have hrest := ih ((List.mem_cons.mp hmem).resolve_left (Ne.symm hd))
        simpa [hd] using hrest

theorem mem_padded_iff {c : Char} (hc : isBlank c = false) (h : Padded s s') :
    c ∈ s' ↔ c ∈ s := by
  obtain ⟨padding, hpadding, rfl⟩ := h.exists_append
  have hnot : c ∉ padding := fun hmem => by simpa [hc] using hpadding c hmem
  simp [hnot]

theorem argumentText?_padded (h : Padded s s') : argumentText? s = argumentText? s' := by
  rcases h.skipBlanks_cases with ⟨hnil, hnil'⟩ | ⟨c, t, t', hcons, hcons', ht⟩
  · rw [argumentText?, argumentText?, hnil, hnil']
  · rw [argumentText?, argumentText?, hcons, hcons']
    by_cases hopen : c = '('
    · subst hopen
      have hclose := mem_padded_iff (c := ')') rfl ht
      by_cases hmem : ')' ∈ t
      · have htake := takeWhile_padded ht hmem
        simpa [hmem, hclose.mpr hmem] using htake
      · simp [hmem, mt hclose.mp hmem]
    · simp [hopen]

theorem assigned?_padded (h : Padded s s') :
    Option.Rel SameCut (assigned? s) (assigned? s') := by
  unfold assigned?
  have hpath := path?_padded isDot h
  generalize path? isDot s = cut at hpath ⊢
  generalize path? isDot s' = cut' at hpath ⊢
  cases hpath with
  | none => exact .none
  | @some x y hxy =>
      obtain ⟨target, behind⟩ := x
      obtain ⟨target', behind'⟩ := y
      obtain ⟨rfl, hbehind⟩ : target = target' ∧ Padded behind behind' := hxy
      rcases hbehind.skipBlanks_cases with ⟨hnil, hnil'⟩ | ⟨c, t, t', hcons, hcons', ht⟩
      · simp only [hnil, hnil']
        exact .none
      · simp only [hcons, hcons']
        by_cases hequals : c = '='
        · subst hequals
          exact .some ⟨rfl, ht⟩
        · simp [hequals]

/-! ## Declarations -/

theorem steady_declaredFunction? : Steady Eq declaredFunction? := by
  refine ⟨rfl, fun h => ?_⟩
  have hword : ∀ c ∈ "function".toList, isBlank c = false := by simp [isBlank]
  refine bind_keyword?_padded ?_ hword h
  refine ⟨rfl, fun h => rel_bind (path?_padded isDotOrColon h) ?_⟩
  rintro ⟨path, behind⟩ ⟨path', behind'⟩ ⟨rfl, hbehind⟩
  have hargs : argumentText? behind = argumentText? behind' := argumentText?_padded hbehind
  simp only [hargs]
  exact rel_refl _

theorem steady_assigned? : Steady SameCut assigned? :=
  ⟨rfl, assigned?_padded⟩

theorem steady_assignedFunction? : Steady Eq assignedFunction? := by
  refine ⟨rfl, fun h => rel_bind (assigned?_padded h) ?_⟩
  rintro ⟨path, value⟩ ⟨path', value'⟩ ⟨rfl, hvalue⟩
  have hword : ∀ c ∈ "function".toList, isBlank c = false := by simp [isBlank]
  refine rel_bind (hvalue.skipBlanks.dropPrefix? hword) fun hbehind => ?_
  rw [argumentText?_padded hbehind]
  exact rel_refl _

theorem withLocal?_padded {α : Type} {R : α → α → Prop} {reader : Text → Option α}
    (hreader : Steady R reader) {line line' : Text}
    (h : Padded (skipBlanks line) (skipBlanks line')) :
    Option.Rel (fun x y => R x.1 y.1 ∧ x.2 = y.2) (withLocal? reader line)
      (withLocal? reader line') := by
  have hword : ∀ c ∈ "local".toList, isBlank c = false := by simp [isBlank]
  have hlocal := bind_keyword?_padded hreader hword h
  have hplain := hreader.2 h
  unfold withLocal?
  dsimp only
  generalize (keyword? "local".toList (skipBlanks line)).bind reader = x at hlocal ⊢
  generalize (keyword? "local".toList (skipBlanks line')).bind reader = x' at hlocal ⊢
  cases hlocal with
  | some hab => exact .some ⟨hab, rfl⟩
  | none =>
      generalize reader (skipBlanks line) = y at hplain ⊢
      generalize reader (skipBlanks line') = y' at hplain ⊢
      cases hplain with
      | some hab => exact .some ⟨hab, rfl⟩
      | none => exact .none

/-- A reader that is steady up to equality gives the same for a padded line. -/
theorem withLocal?_eq {α : Type} {reader : Text → Option α} (hreader : Steady Eq reader)
    {line line' : Text} (h : Padded (skipBlanks line) (skipBlanks line')) :
    withLocal? reader line = withLocal? reader line' := by
  have hrel := withLocal?_padded hreader h
  apply eq_of_rel
  generalize withLocal? reader line = x at hrel ⊢
  generalize withLocal? reader line' = x' at hrel ⊢
  cases hrel with
  | some hab => exact .some (Prod.ext hab.1 hab.2)
  | none => exact .none

theorem ofLine_padded {line line' : Text} (h : Padded (skipBlanks line) (skipBlanks line')) :
    Declaration.ofLine line = Declaration.ofLine line' := by
  have hassigned := withLocal?_padded steady_assigned? h
  unfold Declaration.ofLine
  rw [withLocal?_eq steady_declaredFunction? h, withLocal?_eq steady_assignedFunction? h]
  generalize withLocal? assigned? line = x at hassigned ⊢
  generalize withLocal? assigned? line' = x' at hassigned ⊢
  cases hassigned with
  | none => rfl
  | some hab =>
      split
      · rfl
      · exact congrArg Declaration.assignment hab.1.1

end

/-! ## Lines -/

/-- Lines that mean the same, up to blanks at the end of a piece of text. -/
inductive SourceLine.Alike : SourceLine → SourceLine → Prop
  | separator : Alike .separator .separator
  | tag (name operand : Text) : Alike (.tag name operand) (.tag name operand)
  | text {content content' : Text} (h : Padded content content') :
      Alike (.text content) (.text content')
  | gap : Alike .gap .gap
  | code {line line' : Text} (h : Declaration.ofLine line = Declaration.ofLine line') :
      Alike (.code line) (.code line')

section

variable {line line' : Text}

theorem isSeparator_padded (h : Padded (skipBlanks line) (skipBlanks line')) :
    isSeparator line = isSeparator line' := by
  have hdash : ∀ c, isBlank c → decide (c = '-') = false := by
    intro c hc
    rw [decide_eq_false_iff_not]
    rintro rfl
    cases hc
  have hdashes := h.takeWhile_eq hdash
  have hrest := (h.dropWhile fun c => decide (c = '-')).all_eq fun _ hc => hc
  rw [isSeparator, isSeparator, hdashes, hrest]

theorem dropBlank_padded {s s' : Text} (h : Padded s s') :
    Padded (dropBlank s) (dropBlank s') := by
  cases h with
  | blanks h =>
      cases s' with
      | nil => exact .refl []
      | cons c padding =>
          rw [List.forall_mem_cons] at h
          rw [dropBlank, dropBlank, if_pos h.1]
          exact .blanks h.2
  | cons c hs =>
      rw [dropBlank, dropBlank]
      split
      · exact hs
      · exact .cons c hs

theorem docContent?_padded (h : Padded (skipBlanks line) (skipBlanks line')) :
    Option.Rel Padded (docContent? line) (docContent? line') := by
  have hdashes : ∀ c ∈ "---".toList, isBlank c = false := by simp [isBlank]
  have hcut := h.dropPrefix? hdashes
  unfold docContent?
  generalize dropPrefix? "---".toList (skipBlanks line) = cut at hcut ⊢
  generalize dropPrefix? "---".toList (skipBlanks line') = cut' at hcut ⊢
  cases hcut with
  | none => exact .none
  | some hrest => exact .some (dropBlank_padded hrest)

theorem tag?_padded {content content' : Text} (h : Padded content content') :
    tag? content = tag? content' := by
  rw [tag?, tag?, h.trim_eq]

theorem ofText_padded (hskip : Padded (skipBlanks line) (skipBlanks line'))
    (htrim : trim line = trim line') :
    (SourceLine.ofText line).Alike (SourceLine.ofText line') := by
  have hcontent := docContent?_padded hskip
  rw [SourceLine.ofText, SourceLine.ofText, isSeparator_padded hskip]
  split
  · exact .separator
  · generalize docContent? line = content at hcontent ⊢
    generalize docContent? line' = content' at hcontent ⊢
    cases hcontent with
    | some hrest =>
        simp only [tag?_padded hrest]
        split
        · exact .tag _ _
        · exact .text hrest
    | none =>
        have hgap : isGap line = isGap line' := by rw [isGap, isGap, htrim]
        simp only [hgap]
        split
        · exact .gap
        · exact .code (ofLine_padded hskip)

/-- Blanks on either side do not change what a line means. -/
theorem ofText_wrapped (line : Text) {before behind : Text} (hbefore : ∀ c ∈ before, isBlank c)
    (hbehind : ∀ c ∈ behind, isBlank c) :
    (SourceLine.ofText line).Alike (SourceLine.ofText (before ++ (line ++ behind))) := by
  have hpadded := Padded.append line hbehind
  apply ofText_padded
  · have hfront : skipBlanks (before ++ (line ++ behind)) = skipBlanks (line ++ behind) :=
      List.dropWhile_append_of_pos hbefore
    rw [hfront]
    exact hpadded.skipBlanks
  · rw [trim_whitespace_append fun c hc => isWhitespace_of_isBlank (hbefore c hc),
      hpadded.trim_eq]

end

end DocComment
end ApiManual
