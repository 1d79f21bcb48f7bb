import ApiManual.Proofs.DocComment.PrintedOperand

/-!
# Printed declarations

The line of code below the block of a function is read as the declaration of a function
with the same owner, name and arguments.
-/

namespace ApiManual
namespace DocComment

open Text

/-! ## Paths -/

theorem Identifier.not_mem {s : Text} (h : Identifier s) {c : Char}
    (hc : Unicode.isWord c = false) : c ∉ s := by
  intro hmem
  have hword := h.word c hmem
  simp [hc] at hword

theorem Identifier.dotted {s : Text} (h : Identifier s) : Dotted s := by
  intro part hpart
  rw [List.splitOn_eq_singleton (h.not_mem rfl), List.mem_singleton] at hpart
  rw [hpart]
  exact h

theorem Dotted.append {owner name : Text} (howner : Dotted owner) (hname : Dotted name) :
    Dotted (owner ++ '.' :: name) := by
  intro part hpart
  rw [List.splitOn_append_cons_self, List.mem_append] at hpart
  rcases hpart with hmem | hmem
  · exact howner part hmem
  · exact hname part hmem

theorem dotted_none : ∀ path ∈ (none : Option Text), Dotted path := by
  intro path hpath
  cases hpath

theorem dotted_some {owner : Text} (h : Dotted owner) : ∀ path ∈ some owner, Dotted path := by
  intro path hpath
  cases hpath
  exact h

theorem cutPath_word {isSeparator : Char → Bool} {s : Text} (hs : ∀ c ∈ s, Unicode.isWord c)
    (rest : Text) :
    cutPath isSeparator (s ++ rest) =
      (s ++ (cutPath isSeparator rest).1, (cutPath isSeparator rest).2) := by
  induction s with
  | nil => rfl
  | cons c s ih =>
      rw [List.forall_mem_cons] at hs
      rw [List.cons_append, cutPath, if_pos (by simp [hs.1]), ih hs.2]
      rfl

/-- A path is cut whole, and whatever goes on with it is cut as it would be alone. -/
theorem cutPath_parts {isSeparator : Char → Bool} (hdot : isSeparator '.') {parts : List Text}
    (hne : parts ≠ []) (hparts : ∀ part ∈ parts, Identifier part) (rest : Text) :
    startsIdentifier (join ['.'] parts ++ rest) ∧
      cutPath isSeparator (join ['.'] parts ++ rest) =
        (join ['.'] parts ++ (cutPath isSeparator rest).1, (cutPath isSeparator rest).2) := by
  induction parts with
  | nil => exact absurd rfl hne
  | cons part parts ih =>
      rw [List.forall_mem_cons] at hparts
      obtain ⟨hpart, hothers⟩ := hparts
      cases parts with
      | nil =>
          rw [join_singleton, cutPath_word hpart.word]
          exact ⟨startsIdentifier_append hpart.start _, rfl⟩
      | cons next parts =>
          obtain ⟨hstart, hcut⟩ := ih (by simp) hothers
          have hnext : cutPath isSeparator ('.' :: (join ['.'] (next :: parts) ++ rest)) =
              ('.' :: (join ['.'] (next :: parts) ++ (cutPath isSeparator rest).1),
                (cutPath isSeparator rest).2) := by
            rw [cutPath, if_pos (by simp [hdot, hstart]), hcut]
          rw [join_cons_cons, List.append_assoc, List.singleton_append, List.cons_append,
            cutPath_word hpart.word, hnext, List.append_assoc]
          exact ⟨startsIdentifier_append hpart.start _, rfl⟩

theorem Dotted.isWord {path : Text} (h : Dotted path) : IsWord path := by
  intro c hc
  rcases mem_splitOn_or '.' hc with rfl | ⟨part, hpart, hmem⟩
  · rfl
  · exact (h part hpart).isWord c hmem

theorem Dotted.startsIdentifier {path : Text} (h : Dotted path) (rest : Text) :
    startsIdentifier (path ++ rest) := by
  have hdot : isDot '.' := rfl
  have hstart := (cutPath_parts hdot (List.splitOn_ne_nil '.' path) h rest).1
  rwa [join_splitOn] at hstart

theorem Dotted.path?_eq {path : Text} (h : Dotted path) {isSeparator : Char → Bool}
    (hdot : isSeparator '.') (rest : Text) :
    path? isSeparator (path ++ rest) =
      some (path ++ (cutPath isSeparator rest).1, (cutPath isSeparator rest).2) := by
  have hcut := (cutPath_parts hdot (List.splitOn_ne_nil '.' path) h rest).2
  rw [join_splitOn] at hcut
  rw [path?, if_pos (h.startsIdentifier rest), hcut]

theorem Dotted.functionPath {owner : Option Text} (howner : ∀ path ∈ owner, Dotted path)
    {name : Text} (hname : Identifier name) : Dotted (functionPath owner name) := by
  cases owner with
  | none => exact hname.dotted
  | some path => exact (howner path rfl).append hname.dotted

theorem Identifier.noSeparator {name : Text} (h : Identifier name) :
    ∀ c ∈ name, isDotOrColon c = false := by
  intro c hc
  have hdot : c ≠ '.' := fun heq => h.not_mem rfl (heq ▸ hc)
  have hcolon : c ≠ ':' := fun heq => h.not_mem rfl (heq ▸ hc)
  simp [isDotOrColon, hdot, hcolon]

theorem splitOwner_separated {name : Text} (hname : ∀ c ∈ name, isDotOrColon c = false)
    {separator : Char} (hseparator : isDotOrColon separator) (path : Text) :
    splitOwner (path ++ separator :: name) = (some path, name) := by
  have hreverse : (path ++ separator :: name).reverse =
      name.reverse ++ separator :: path.reverse := by
    simp
  have hpass : ∀ c ∈ name.reverse, !isDotOrColon c := by simpa using hname
  have htake := takeWhile_append_cons (c := separator) hpass (by simp [hseparator]) path.reverse
  have hlength : (path ++ separator :: name).length - name.length - 1 = path.length := by
    simp only [List.length_append, List.length_cons]
    omega
  have hne : name.length ≠ (path ++ separator :: name).length := by
    simp only [List.length_append, List.length_cons]
    omega
  simp only [splitOwner, hreverse, htake, List.reverse_reverse, hlength, List.take_left,
    if_neg hne]

theorem splitOwner_plain {name : Text} (hname : ∀ c ∈ name, isDotOrColon c = false) :
    splitOwner name = (none, name) := by
  have htake : name.reverse.takeWhile (!isDotOrColon ·) = name.reverse :=
    List.takeWhile_eq_self_iff.mpr (by simpa using hname)
  simp [splitOwner, htake]

theorem splitOwner_functionPath {name : Text} (hname : Identifier name) (owner : Option Text) :
    splitOwner (functionPath owner name) = (owner, name) := by
  cases owner with
  | none => exact splitOwner_plain hname.noSeparator
  | some path => exact splitOwner_separated hname.noSeparator rfl path

theorem skipBlanks_of_startsIdentifier {s : Text} (h : startsIdentifier s) : skipBlanks s = s := by
  cases s with
  | nil => cases h
  | cons c s =>
      apply skipBlanks_eq_self
      intro d hd
      cases hd
      exact isBlank_of_isWhitespace_eq_false (isWhitespace_of_isTagChar h)

/-! ## Arguments -/

/-- A name that can stand between the commas of an argument list. -/
structure ArgumentName (name : Text) : Prop where
  nonempty : name ≠ []
  trimmed : Trimmed name
  noComma : ',' ∉ name
  noClose : ')' ∉ name
  notSelf : name ≠ "self".toList

theorem argumentNames_join {names : List Text} (h : ∀ s ∈ names, ArgumentName s) :
    argumentNames (join [',', ' '] names) = names := by
  cases names with
  | nil => rfl
  | cons name names =>
      obtain ⟨hname, hnames⟩ := List.forall_mem_cons.mp h
      have hspaced : ∀ s ∈ names, ',' ∉ ' ' :: s ∧ Trimmed s :=
        fun s hs => ⟨by simp [(hnames s hs).noComma], (hnames s hs).trimmed⟩
      have hwhole : ∀ s : Text, ',' ∉ s → s.splitOn ',' = [s] :=
        fun s hs => List.splitOn_eq_singleton hs
      have hcut : ∀ s rest : Text, ',' ∉ s →
          (s ++ ',' :: rest).splitOn ',' = s :: rest.splitOn ',' :=
        fun s rest hs => List.splitOn_append_cons_self_of_not_mem hs rest
      have hsplit := map_trim_split_join hwhole hcut [] hname.noComma hname.trimmed hspaced
      rw [List.nil_append] at hsplit
      rw [argumentNames, hsplit, List.filter_eq_self]
      intro s hs
      have hs' := h s hs
      rw [Bool.and_eq_true]
      exact ⟨by simpa using hs'.nonempty, decide_eq_true hs'.notSelf⟩

theorem ParamForm.not_mem_name {p : ParamDoc} (h : ParamForm p) {c : Char}
    (hdot : c ∉ "...".toList) (hc : Unicode.isWord c = false) : c ∉ p.name := by
  rcases h.name with hdots | hident
  · rw [hdots]
    exact hdot
  · exact hident.not_mem hc

theorem ParamForm.argumentName {p : ParamDoc} (h : ParamForm p) : ArgumentName p.name where
  nonempty := h.name_ne_nil
  trimmed := h.isWord_name.trimmed
  noComma := h.not_mem_name (by decide) rfl
  noClose := h.not_mem_name (by decide) rfl
  notSelf := h.notSelf

theorem argumentText?_group {args : Text} (h : ')' ∉ args) (rest : Text) :
    argumentText? ('(' :: (args ++ ')' :: rest)) = some args := by
  have hskip : skipBlanks ('(' :: (args ++ ')' :: rest)) = '(' :: (args ++ ')' :: rest) := rfl
  have hchars : ∀ c ∈ args, decide (c ≠ ')') := by
    intro c hc
    rw [decide_eq_true_eq]
    rintro rfl
    exact h hc
  have htake : (args ++ ')' :: rest).takeWhile (fun c => decide (c ≠ ')')) = args :=
    takeWhile_append_cons hchars rfl rest
  rw [argumentText?, hskip]
  simp only [htake]
  simp

/-! ## Declarations -/

section

variable {owner : Option Text} {f : FunctionDoc}

theorem declaredFunction?_eq (howner : ∀ path ∈ owner, Dotted path) (hf : FunctionForm f) :
    declaredFunction? (declarationLine owner f) =
      some (functionPath owner f.name, join [',', ' '] (f.params.map ParamDoc.name)) := by
  have hpath := Dotted.functionPath howner hf.name
  have hcut : path? isDotOrColon (functionPath owner f.name ++
      '(' :: (join [',', ' '] (f.params.map ParamDoc.name) ++ [')'])) =
        some (functionPath owner f.name ++ [],
          '(' :: (join [',', ' '] (f.params.map ParamDoc.name) ++ [')'])) :=
    hpath.path?_eq rfl _
  have hskip := skipBlanks_of_startsIdentifier (hpath.startsIdentifier
    ('(' :: (join [',', ' '] (f.params.map ParamDoc.name) ++ [')'])))
  have hkeyword : keyword? "function".toList (declarationLine owner f) =
      some (functionPath owner f.name ++
        '(' :: (join [',', ' '] (f.params.map ParamDoc.name) ++ [')'])) :=
    keyword?_append "function".toList hskip
  have hclose : ')' ∉ join [',', ' '] (f.params.map ParamDoc.name) := by
    apply not_mem_join _ (by decide)
    rw [List.forall_mem_map]
    exact fun p hp => (hf.params p hp).argumentName.noClose
  rw [declaredFunction?, hkeyword]
  simp [hcut, argumentText?_group hclose]

theorem declaration_ofLine (howner : ∀ path ∈ owner, Dotted path) (hf : FunctionForm f) :
    Declaration.ofLine (declarationLine owner f) =
      .function owner f.name (f.params.map ParamDoc.name) false := by
  have hskip : skipBlanks (declarationLine owner f) = declarationLine owner f := rfl
  have hlocal : keyword? "local".toList (declarationLine owner f) = none := rfl
  have hread : withLocal? declaredFunction? (declarationLine owner f) =
      some ((functionPath owner f.name, join [',', ' '] (f.params.map ParamDoc.name)), false) := by
    rw [withLocal?, hskip, hlocal, declaredFunction?_eq howner hf]
    rfl
  have hnames : ∀ s ∈ f.params.map ParamDoc.name, ArgumentName s := by
    rw [List.forall_mem_map]
    exact fun p hp => (hf.params p hp).argumentName
  rw [Declaration.ofLine, hread]
  simp only [Option.some_or, Declaration.ofFunction, splitOwner_functionPath hf.name owner,
    argumentNames_join hnames]

theorem declarationLine_eq (owner : Option Text) (f : FunctionDoc) :
    declarationLine owner f =
      "function".toList ++ ' ' :: (functionPath owner f.name ++
        '(' :: (join [',', ' '] (f.params.map ParamDoc.name) ++ [')'])) := rfl

theorem getLast?_declarationLine (owner : Option Text) (f : FunctionDoc) :
    (declarationLine owner f).getLast? = some ')' := by
  have hline : declarationLine owner f =
      ("function".toList ++ ' ' :: (functionPath owner f.name ++
        '(' :: join [',', ' '] (f.params.map ParamDoc.name))) ++ [')'] := by
    rw [declarationLine_eq]
    simp only [List.append_assoc, List.cons_append]
  rw [hline, List.getLast?_concat]

theorem trimmed_declarationLine (owner : Option Text) (f : FunctionDoc) :
    Trimmed (declarationLine owner f) := by
  have hhead : (declarationLine owner f).head? = some 'f' := rfl
  exact trimmed_of_ends hhead (getLast?_declarationLine owner f) rfl rfl

theorem ofText_declarationLine (owner : Option Text) (f : FunctionDoc) :
    SourceLine.ofText (declarationLine owner f) = .code (declarationLine owner f) := by
  have hseparator : isSeparator (declarationLine owner f) = false := rfl
  have hdoc : docContent? (declarationLine owner f) = none := rfl
  have htrim : trim (declarationLine owner f) = declarationLine owner f :=
    trimmed_declarationLine owner f
  have hgap : isGap (declarationLine owner f) = false := by
    rw [isGap, htrim]
    rfl
  rw [SourceLine.ofText, hseparator, hdoc, hgap]
  rfl

theorem fileLine_declarationLine (howner : ∀ path ∈ owner, Dotted path) (hf : FunctionForm f) :
    FileLine (declarationLine owner f) := by
  have hpath := oneLine_of_isWord (Dotted.functionPath howner hf.name).isWord
  have hargs : '\n' ∉ join [',', ' '] (f.params.map ParamDoc.name) := by
    apply not_mem_join _ (by decide)
    rw [List.forall_mem_map]
    exact fun p hp => oneLine_of_isWord (hf.params p hp).isWord_name
  constructor
  · rw [declarationLine_eq]
    simp [hpath, hargs]
  · rw [getLast?_declarationLine]
    simp

end

end DocComment
end ApiManual
