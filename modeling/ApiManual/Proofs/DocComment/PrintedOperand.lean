import ApiManual.Proofs.DocComment.PrintedBlock

/-!
# Printed operands

The operand of every tag is read back as what it was printed from, and can be written in
one line.
-/

namespace ApiManual
namespace DocComment

open Text

/-! ## Texts side by side -/

theorem followedBy_nil (front : Text) : followedBy front [] = front := rfl

theorem followedBy_of_ne {front behind : Text} (h : behind ≠ []) :
    followedBy front behind = front ++ ' ' :: behind := by
  simp [followedBy, h]

theorem oneLine_followedBy {front behind : Text} (hfront : '\n' ∉ front)
    (hbehind : '\n' ∉ behind) : '\n' ∉ followedBy front behind := by
  by_cases h : behind = []
  · rw [h, followedBy_nil]
    exact hfront
  · rw [followedBy_of_ne h]
    simp [hfront, hbehind]

theorem oneLine_of_isWord {s : Text} (h : IsWord s) : '\n' ∉ s := by
  intro hmem
  cases h '\n' hmem

/-! ## Types and descriptions -/

theorem cleanDetails_eq {details : Text} (h : DetailsForm details) :
    cleanDetails details = details := by
  have htrim : trim details = details := h.trimmed
  have hsign : details.dropWhile (· = '#') = details := by
    apply dropWhile_eq_self
    intro c hc
    rw [decide_eq_false_iff_not]
    rintro rfl
    exact h.noSign hc
  rw [cleanDetails, htrim, hsign, htrim]

namespace TypeForm

variable {type : LuaType} {details : Text}

theorem expression (h : TypeForm type details) : TypeExpr.Expression type.text type :=
  h.wellFormed.expression

theorem splitType_eq (h : TypeForm type details) (t : Tag) :
    t.splitType (typeOperand type details) = .ok (type.text, details) := by
  have hsplit : TypeExpr.split (typeOperand type details) = .ok (type.text, details) := by
    unfold typeOperand
    by_cases hdetails : details = []
    · rw [hdetails, followedBy_nil]
      exact h.wellFormed.split_text
    · rw [followedBy_of_ne hdetails]
      exact h.wellFormed.split_text_append h.behind.trimmed h.separate
  rw [Tag.splitType, hsplit]
  rfl

theorem parseType_eq (h : TypeForm type details) (t : Tag) :
    t.parseType type.text = .ok type := by
  rw [Tag.parseType, h.expression.parsed]
  rfl

theorem trimmed (h : TypeForm type details) : Trimmed (typeOperand type details) :=
  trimmed_followedBy h.expression.trimmed h.expression.nonempty h.behind.trimmed

theorem oneLine_operand (h : TypeForm type details) : '\n' ∉ typeOperand type details :=
  oneLine_followedBy h.oneLine h.behind.oneLine

theorem ne_nil (h : TypeForm type details) : typeOperand type details ≠ [] :=
  followedBy_ne_nil h.expression.nonempty

end TypeForm

theorem returnDoc_eq {r : ReturnDoc} (h : TypeForm r.type r.details) {t : Tag}
    (ht : t.operand = returnOperand r) : returnDoc t = .ok r := by
  have hne : r.type.text ≠ [] := h.expression.nonempty
  rw [returnDoc, ht, returnOperand, h.splitType_eq, ok_bind]
  simp only [List.isEmpty_iff, hne, if_false, h.parseType_eq, ok_bind, cleanDetails_eq h.behind]
  rfl

/-! ## Parameters -/

theorem startsIdentifier_append {s : Text} (h : startsIdentifier s) (rest : Text) :
    startsIdentifier (s ++ rest) := by
  cases s with
  | nil => cases h
  | cons c s => exact h

theorem Identifier.ne_nil {s : Text} (h : Identifier s) : s ≠ [] := by
  rintro rfl
  cases h.start

theorem Identifier.isWord {s : Text} (h : Identifier s) : IsWord s :=
  fun c hc => Unicode.isWhitespace_of_isWord (h.word c hc)

theorem paramName?_dots (rest : Text) :
    paramName? ("...".toList ++ rest) = some ("...".toList, rest) := by
  simp [paramName?]

theorem paramName?_identifier {s rest : Text} (h : Identifier s)
    (hrest : ∀ c ∈ rest.head?, Unicode.isWord c = false) :
    paramName? (s ++ rest) = some (s, rest) := by
  have hstart := startsIdentifier_append h.start rest
  unfold paramName?
  split
  · rename_i behind heq
    rw [heq] at hstart
    cases hstart
  · rw [if_pos hstart, takeWhile_append_stop h.word hrest, dropWhile_append_stop h.word hrest]

/-- What stands behind the name of a parameter tells whether it is optional and its default
value. -/
theorem takeDefault?_paramMark {p : ParamDoc}
    (hdefault : ∀ value ∈ p.defaultValue, value ≠ [] ∧ IsWord value ∧ p.optional)
    (rest : Text) :
    ∃ optional, (optional || p.defaultValue.isSome) = p.optional ∧
      (takeMark (paramMark p ++ ' ' :: rest)).1 = optional ∧
      takeDefault? (takeMark (paramMark p ++ ' ' :: rest)).2 =
        some (p.defaultValue, ' ' :: rest) := by
  unfold paramMark
  cases hvalue : p.defaultValue with
  | some value =>
      obtain ⟨hne, hword, hoptional⟩ := hdefault value hvalue
      refine ⟨false, by simp [hoptional], rfl, ?_⟩
      have hchars : ∀ c ∈ value, !isWhitespace c := fun c hc => by simp [hword c hc]
      have htake := takeWhile_append_cons (c := ' ') hchars rfl rest
      have hdrop := dropWhile_append_cons (c := ' ') hchars rfl rest
      simp [takeMark, takeDefault?, htake, hdrop, hne]
  | none =>
      cases hoptional : p.optional with
      | true => exact ⟨true, rfl, rfl, rfl⟩
      | false => exact ⟨false, rfl, rfl, rfl⟩

theorem head?_paramMark (p : ParamDoc) (rest : Text) :
    ∀ c ∈ (paramMark p ++ ' ' :: rest).head?, Unicode.isWord c = false := by
  unfold paramMark
  intro c hc
  split at hc
  · cases hc
    rfl
  · split at hc
    · cases hc
      rfl
    · cases hc
      rfl

theorem ofText?_paramOperand {p : ParamDoc} (h : ParamForm p) :
    ∃ optional, (optional || p.defaultValue.isSome) = p.optional ∧
      ParamOperand.ofText? (paramOperand p) =
        some ⟨p.name, optional, p.defaultValue, typeOperand p.type p.details⟩ := by
  obtain ⟨optional, hoptional, hmark, hdefault⟩ :=
    takeDefault?_paramMark h.default (typeOperand p.type p.details)
  have hname : paramName? (paramOperand p) =
      some (p.name, paramMark p ++ ' ' :: typeOperand p.type p.details) := by
    rcases h.name with hdots | hident
    · rw [paramOperand, hdots]
      exact paramName?_dots _
    · exact paramName?_identifier hident (head?_paramMark p _)
  have hskip : skipBlanks (typeOperand p.type p.details) = typeOperand p.type p.details :=
    h.type.trimmed.skipBlanks_eq
  refine ⟨optional, hoptional, ?_⟩
  simp [ParamOperand.ofText?, hname, hmark, hdefault, nextPart?, isBlank, hskip]

theorem paramDoc_eq {p : ParamDoc} (h : ParamForm p) {t : Tag}
    (ht : t.operand = paramOperand p) : paramDoc t = .ok p := by
  obtain ⟨optional, hoptional, hoperand⟩ := ofText?_paramOperand h
  have hne : p.type.text ≠ [] := h.type.expression.nonempty
  have hmark : TypeExpr.stripOptional p.type.text = (p.type.text, false) := by
    rw [TypeExpr.stripOptional, if_neg (by simp [h.unmarked])]
  rw [paramDoc, ht, hoperand]
  simp only [h.type.splitType_eq, ok_bind, List.isEmpty_iff, hne, if_false, hmark,
    h.type.parseType_eq, cleanDetails_eq h.type.behind, hoptional, Bool.or_false]
  rfl

theorem ParamForm.isWord_name {p : ParamDoc} (h : ParamForm p) : IsWord p.name := by
  rcases h.name with hdots | hident
  · rw [hdots]
    decide
  · exact hident.isWord

theorem ParamForm.name_ne_nil {p : ParamDoc} (h : ParamForm p) : p.name ≠ [] := by
  rcases h.name with hdots | hident
  · rw [hdots]
    decide
  · exact hident.ne_nil

theorem ParamForm.tagForm {p : ParamDoc} (h : ParamForm p) :
    TagForm "param".toList (paramOperand p) where
  tagName := by decide
  trimmed := by
    have hbetween : paramOperand p =
        p.name ++ ((paramMark p ++ [' ']) ++ typeOperand p.type p.details) := by
      simp [paramOperand]
    rw [hbetween]
    exact h.isWord_name.trimmed.append h.type.trimmed h.name_ne_nil h.type.ne_nil _
  oneLine := by
    have hmark : '\n' ∉ paramMark p := by
      unfold paramMark
      cases hvalue : p.defaultValue with
      | some value =>
          have hword := oneLine_of_isWord (h.default value hvalue).2.1
          simp [hword]
      | none => cases p.optional <;> decide
    have hname := oneLine_of_isWord h.isWord_name
    have htype := h.type.oneLine_operand
    simp [paramOperand, hname, hmark, htype]

theorem TypeForm.tagForm {type : LuaType} {details : Text} (h : TypeForm type details) :
    TagForm "return".toList (typeOperand type details) where
  tagName := by decide
  trimmed := h.trimmed
  oneLine := h.oneLine_operand

/-! ## Fields -/

theorem dropPrefix?_append (s rest : Text) : dropPrefix? s (s ++ rest) = some rest := by
  induction s with
  | nil => rfl
  | cons c s ih => simpa [dropPrefix?] using ih

theorem keyword?_append (word : Text) {rest : Text} (hskip : skipBlanks rest = rest) :
    keyword? word (word ++ ' ' :: rest) = some rest := by
  simp [keyword?, dropPrefix?_append, isBlank, hskip]

theorem takeVisibility_word (visibility : Visibility) {rest : Text} (hrest : Trimmed rest) :
    takeVisibility (visibilityWord visibility ++ ' ' :: rest) = (visibility, rest) := by
  have hword : ∀ word, keyword? word (word ++ ' ' :: rest) = some rest :=
    fun word => keyword?_append word hrest.skipBlanks_eq
  have hprotPub : keyword? "public".toList ("protected".toList ++ ' ' :: rest) = none := rfl
  have hprotPriv : keyword? "private".toList ("protected".toList ++ ' ' :: rest) = none := rfl
  have hprivPub : keyword? "public".toList ("private".toList ++ ' ' :: rest) = none := rfl
  rw [takeVisibility, visibilityWords]
  cases visibility with
  | pub =>
      have hpub : visibilityWord .pub = "public".toList := rfl
      simp only [hpub, List.findSome?_cons, hword, Option.map_some, Option.getD_some]
  | prot =>
      have hprot : visibilityWord .prot = "protected".toList := rfl
      simp only [hprot, List.findSome?_cons, hprotPub, hprotPriv, hword, Option.map_some,
        Option.map_none, Option.getD_some]
  | priv =>
      have hpriv : visibilityWord .priv = "private".toList := rfl
      simp only [hpriv, List.findSome?_cons, hprivPub, hword, Option.map_some, Option.map_none,
        Option.getD_some]

/-- What stands behind the visibility of a field. -/
def fieldText (f : FieldDoc) : Text :=
  match f.type with
  | some t => f.name ++ ' ' :: typeOperand t f.details
  | none => followedBy f.name f.details

/-- What stands behind the name of a field. -/
def fieldRest (f : FieldDoc) : Text :=
  match f.type with
  | some t => typeOperand t f.details
  | none => f.details

theorem fieldOperand_eq (f : FieldDoc) :
    fieldOperand f = visibilityWord f.visibility ++ ' ' :: fieldText f := rfl

theorem splitType_nil (t : Tag) : t.splitType [] = .ok ([], []) := rfl

namespace FieldForm

variable {isEnum : Bool} {f : FieldDoc}

theorem trimmed_text (h : FieldForm isEnum f) : Trimmed (fieldText f) := by
  unfold fieldText
  cases htype : f.type with
  | some t =>
      have htypeForm := h.type t htype
      exact h.word.trimmed.append htypeForm.trimmed h.named htypeForm.ne_nil [' ']
  | none => exact trimmed_followedBy h.word.trimmed h.named h.details.trimmed

theorem text_ne_nil (h : FieldForm isEnum f) : fieldText f ≠ [] := by
  unfold fieldText
  cases htype : f.type with
  | some t => simp
  | none => exact followedBy_ne_nil h.named

theorem oneLine_text (h : FieldForm isEnum f) : '\n' ∉ fieldText f := by
  have hname := oneLine_of_isWord h.word
  unfold fieldText
  cases htype : f.type with
  | some t =>
      have htypeForm := (h.type t htype).oneLine_operand
      simp [hname, htypeForm]
  | none => exact oneLine_followedBy hname h.details.oneLine

theorem stripOptional_name (h : FieldForm isEnum f) :
    TypeExpr.stripOptional f.name = (f.name, false) := by
  rw [TypeExpr.stripOptional, if_neg]
  rw [Bool.and_eq_true, decide_eq_true_eq, decide_eq_true_eq]
  rintro ⟨hlength, hlast⟩
  exact h.unmarked hlength hlast

theorem nameChars (h : FieldForm isEnum f) : ∀ c ∈ f.name, !isBlank c :=
  h.word.not_isBlank

/-- The name of a field ends at the first blank. -/
theorem text_parts (h : FieldForm isEnum f) :
    (fieldText f).takeWhile (!isBlank ·) = f.name ∧
      skipBlanks ((fieldText f).dropWhile (!isBlank ·)) = fieldRest f := by
  have hcut : ∀ rest, Trimmed rest →
      (f.name ++ ' ' :: rest).takeWhile (!isBlank ·) = f.name ∧
        skipBlanks ((f.name ++ ' ' :: rest).dropWhile (!isBlank ·)) = rest := by
    intro rest hrest
    rw [takeWhile_append_cons h.nameChars rfl, dropWhile_append_cons h.nameChars rfl]
    exact ⟨rfl, hrest.skipBlanks_eq⟩
  unfold fieldText fieldRest
  cases htype : f.type with
  | some t => exact hcut _ (h.type t htype).trimmed
  | none =>
      by_cases hdetails : f.details = []
      · have htake : f.name.takeWhile (!isBlank ·) = f.name :=
          List.takeWhile_eq_self_iff.mpr h.nameChars
        have hdrop : f.name.dropWhile (!isBlank ·) = [] :=
          List.dropWhile_eq_nil_iff.mpr h.nameChars
        simp only [hdetails, followedBy_nil, htake, hdrop]
        exact ⟨trivial, rfl⟩
      · simp only [followedBy_of_ne hdetails]
        exact hcut _ h.details.trimmed

theorem tagForm (h : FieldForm isEnum f) : TagForm "field".toList (fieldOperand f) where
  tagName := by decide
  trimmed := by
    have hword : Trimmed (visibilityWord f.visibility) ∧ visibilityWord f.visibility ≠ [] := by
      cases f.visibility <;> exact ⟨by decide, by decide⟩
    rw [fieldOperand_eq]
    exact hword.1.append h.trimmed_text hword.2 h.text_ne_nil [' ']
  oneLine := by
    have hword : '\n' ∉ visibilityWord f.visibility := by
      cases f.visibility <;> decide
    have htext := h.oneLine_text
    simp [fieldOperand_eq, hword, htext]

theorem fieldDoc_eq (h : FieldForm isEnum f) {t : Tag} (ht : t.operand = fieldOperand f) :
    fieldDoc isEnum t = .ok f := by
  have hvisibility : takeVisibility t.operand = (f.visibility, fieldText f) := by
    rw [ht, fieldOperand_eq]
    exact takeVisibility_word f.visibility h.trimmed_text
  have hne : t.operand ≠ [] := by
    rw [ht, fieldOperand_eq]
    simp
  rw [fieldDoc, if_neg (by simpa using hne)]
  simp only [hvisibility, h.text_parts.1, h.text_parts.2, h.stripOptional_name]
  unfold fieldRest
  obtain ⟨name, type, details, visibility⟩ := f
  cases type with
  | some type =>
      have htype := h.type type rfl
      have htext : type.text ≠ [] := htype.expression.nonempty
      have hclass : isEnum = false := by
        cases isEnum with
        | true => cases h.untyped rfl
        | false => rfl
      simp only [hclass, Bool.false_eq_true, if_false, htype.splitType_eq, ok_bind,
        List.isEmpty_iff, htext, htype.parseType_eq, cleanDetails_eq h.details]
      rfl
  | none =>
      have hdetails := cleanDetails_eq h.details
      cases isEnum with
      | true =>
          simp only [if_true, hdetails]
          rfl
      | false =>
          have hempty : details = [] := h.typeFirst rfl rfl
          simp only at hdetails
          rw [hempty] at hdetails
          simp only [hempty, Bool.false_eq_true, if_false, splitType_nil, ok_bind, hdetails]
          rfl

end FieldForm

/-! ## Names -/

theorem className_eq {name : Text} (hname : ∀ c ∈ name, isBlank c = false ∧ c ≠ ':')
    (htrimmed : Trimmed name) (hne : name ≠ []) {t : Tag} (ht : t.operand = name) :
    className t = .ok name := by
  have htake : name.takeWhile (fun c => !(c = ':' || isBlank c)) = name := by
    apply List.takeWhile_eq_self_iff.mpr
    intro c hc
    simp [hname c hc]
  have htrim : trim name = name := htrimmed
  rw [className, ht, htake, htrim, if_neg (by simpa using hne)]

theorem moduleName_eq {name : Text} (hword : IsWord name) (hne : name ≠ []) {t : Tag}
    (ht : t.operand = name) : moduleName t = .ok name := by
  have hfirst : firstWord? name = some name := by
    have htake : name.takeWhile (!isWhitespace ·) = name := by
      apply List.takeWhile_eq_self_iff.mpr
      intro c hc
      simp [hword c hc]
    obtain ⟨c, rest, hname⟩ := List.exists_cons_of_ne_nil hne
    rw [firstWord?, hword.trimmed.trimStart_eq]
    rw [hname] at htake ⊢
    exact congrArg some htake
  rw [moduleName, ht, hfirst]

end DocComment
end ApiManual
