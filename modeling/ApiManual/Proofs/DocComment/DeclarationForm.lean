import ApiManual.Proofs.DocComment.PrintedDeclaration
import ApiManual.Proofs.Text.Lines

/-!
# Forms of a declaration

A function stands behind the word `function` or is assigned to its path, and a method
names its first argument `self` or leaves that to a colon.  The reader takes all forms of
a declaration alike, so a source documents the same module whichever of them it uses.
-/

namespace ApiManual
namespace DocComment

open Text

/-- A head with an argument list and the rest of the line behind it. -/
def applied (head args rest : Text) : Text :=
  head ++ '(' :: (args ++ ')' :: rest)

/-- Two lines are forms of one declaration. -/
inductive SameForm : Text → Text → Prop
  | assigned {path args : Text} (hpath : Dotted path) (hargs : ')' ∉ args) (rest : Text) :
      SameForm (applied ("function ".toList ++ path) args rest)
        (applied (path ++ " = function".toList) args rest)
  | assignedLocal {name args : Text} (hname : Identifier name) (hargs : ')' ∉ args)
      (rest : Text) :
      SameForm (applied ("local function ".toList ++ name) args rest)
        (applied ("local ".toList ++ (name ++ " = function".toList)) args rest)
  | method {path name args : Text} (hpath : Dotted path) (hname : Identifier name)
      (hargs : ')' ∉ args) (rest : Text) :
      SameForm (applied ("function ".toList ++ (path ++ ':' :: name)) args rest)
        (applied ("function ".toList ++ (path ++ '.' :: name)) ("self, ".toList ++ args) rest)
  | bareMethod {path name args : Text} (hpath : Dotted path) (hname : Identifier name)
      (hargs : isBlankLine args) (rest : Text) :
      SameForm (applied ("function ".toList ++ (path ++ ':' :: name)) args rest)
        (applied ("function ".toList ++ (path ++ '.' :: name)) "self".toList rest)
  | symm {line line' : Text} (h : SameForm line line') : SameForm line' line

/-! ## Functions behind the word `function` -/

/-- A path that ends in front of an argument list. -/
def EndsAtGroup (path : Text) : Prop :=
  ∀ rest, path? isDotOrColon (path ++ '(' :: rest) = some (path, '(' :: rest)

theorem EndsAtGroup.startsIdentifier {path : Text} (h : EndsAtGroup path) (rest : Text) :
    startsIdentifier (path ++ '(' :: rest) := by
  have hpath := h rest
  unfold path? at hpath
  split at hpath
  · assumption
  · cases hpath

theorem Dotted.endsAtGroup {path : Text} (h : Dotted path) : EndsAtGroup path := by
  intro rest
  have hstop : cutPath isDotOrColon ('(' :: rest) = ([], '(' :: rest) := rfl
  rw [h.path?_eq rfl, hstop, List.append_nil]

theorem Dotted.endsAtGroup_separated {path name : Text} (hpath : Dotted path)
    (hname : Identifier name) {separator : Char} (hseparator : isDotOrColon separator) :
    EndsAtGroup (path ++ separator :: name) := by
  intro rest
  have hstart : DocComment.startsIdentifier (name ++ '(' :: rest) :=
    startsIdentifier_append hname.start _
  have hstop : cutPath isDotOrColon ('(' :: rest) = ([], '(' :: rest) := rfl
  have hcut : cutPath isDotOrColon (separator :: (name ++ '(' :: rest)) =
      (separator :: name, '(' :: rest) := by
    rw [cutPath, if_pos (by simp [hseparator, hstart]), cutPath_word hname.word, hstop,
      List.append_nil]
  rw [List.append_assoc, List.cons_append, hpath.path?_eq rfl, hcut]

theorem declaredFunction?_applied {path args : Text} (hpath : EndsAtGroup path)
    (hargs : ')' ∉ args) (rest : Text) :
    declaredFunction? (applied ("function ".toList ++ path) args rest) = some (path, args) := by
  have hskip := skipBlanks_of_startsIdentifier (hpath.startsIdentifier (args ++ ')' :: rest))
  have hkeyword : keyword? "function".toList (applied ("function ".toList ++ path) args rest) =
      some (path ++ '(' :: (args ++ ')' :: rest)) :=
    keyword?_append "function".toList hskip
  have hcut := hpath (args ++ ')' :: rest)
  rw [declaredFunction?, hkeyword]
  simp [hcut, argumentText?_group hargs]

theorem ofLine_of_declared {line path args : Text} {isLocal : Bool}
    (h : withLocal? declaredFunction? line = some ((path, args), isLocal)) :
    Declaration.ofLine line = .ofFunction path args isLocal := by
  rw [Declaration.ofLine, h]
  rfl

theorem ofLine_declared {path args : Text} (hpath : EndsAtGroup path) (hargs : ')' ∉ args)
    (rest : Text) :
    Declaration.ofLine (applied ("function ".toList ++ path) args rest) =
      .ofFunction path args false := by
  have hlocal : keyword? "local".toList (applied ("function ".toList ++ path) args rest) = none :=
    rfl
  have hskip : skipBlanks (applied ("function ".toList ++ path) args rest) =
      applied ("function ".toList ++ path) args rest := rfl
  apply ofLine_of_declared
  rw [withLocal?, hskip, hlocal, declaredFunction?_applied hpath hargs]
  rfl

theorem ofLine_declaredLocal {path args : Text} (hpath : EndsAtGroup path)
    (hargs : ')' ∉ args) (rest : Text) :
    Declaration.ofLine (applied ("local function ".toList ++ path) args rest) =
      .ofFunction path args true := by
  have hlocal : keyword? "local".toList (applied ("local function ".toList ++ path) args rest) =
      some (applied ("function ".toList ++ path) args rest) := rfl
  have hskip : skipBlanks (applied ("local function ".toList ++ path) args rest) =
      applied ("local function ".toList ++ path) args rest := rfl
  apply ofLine_of_declared
  rw [withLocal?, hskip, hlocal, Option.bind_some, declaredFunction?_applied hpath hargs]

/-! ## Assigned functions -/

/-- A path with a blank behind it begins with a word only if it is that word. -/
theorem keyword?_path {word path : Text} (hword : ' ' ∉ word) (hpath : IsWord path)
    {tail r : Text} (h : keyword? word (path ++ ' ' :: tail) = some r) : r = skipBlanks tail := by
  induction word generalizing path with
  | nil =>
      cases path with
      | nil => exact (Option.some.inj h).symm
      | cons c path =>
          have hc : isBlank c = false :=
            isBlank_of_isWhitespace_eq_false (hpath c List.mem_cons_self)
          simp [keyword?, dropPrefix?, hc] at h
  | cons d word ih =>
      rw [List.mem_cons, not_or] at hword
      cases path with
      | nil =>
          have hd : d ≠ ' ' := Ne.symm hword.1
          simp [keyword?, dropPrefix?, hd] at h
      | cons c path =>
          by_cases hdc : d = c
          · have hnext : keyword? (d :: word) (c :: path ++ ' ' :: tail) =
                keyword? word (path ++ ' ' :: tail) := by
              simp [keyword?, dropPrefix?, hdc]
            rw [hnext] at h
            exact ih hword.2 (fun e he => hpath e (List.mem_cons_of_mem _ he)) h
          · simp [keyword?, dropPrefix?, hdc] at h

/-- The assignment behind the path, which is no declaration of its own. -/
def assignment (args rest : Text) : Text :=
  applied "= function".toList args rest

theorem applied_assigned (path args rest : Text) :
    applied (path ++ " = function".toList) args rest = path ++ ' ' :: assignment args rest := by
  simp [applied, assignment]

theorem declaredFunction?_assigned {path : Text} (hpath : IsWord path) (args rest : Text) :
    declaredFunction? (applied (path ++ " = function".toList) args rest) = none := by
  rw [applied_assigned]
  cases hkeyword : keyword? "function".toList (path ++ ' ' :: assignment args rest) with
  | none =>
      rw [declaredFunction?, hkeyword]
      rfl
  | some r =>
      rw [declaredFunction?, hkeyword, keyword?_path (by decide) hpath hkeyword]
      rfl

theorem assignedFunction?_assigned {path args : Text} (hpath : Dotted path)
    (hargs : ')' ∉ args) (rest : Text) :
    assignedFunction? (applied (path ++ " = function".toList) args rest) = some (path, args) := by
  have hstop : cutPath isDot (' ' :: assignment args rest) = ([], ' ' :: assignment args rest) :=
    rfl
  have hassigned : assigned? (path ++ ' ' :: assignment args rest) =
      some (path, applied " function".toList args rest) := by
    rw [assigned?, hpath.path?_eq rfl, hstop, List.append_nil]
    rfl
  have hbehind : dropPrefix? "function".toList (skipBlanks (applied " function".toList args rest)) =
      some ('(' :: (args ++ ')' :: rest)) := rfl
  rw [applied_assigned, assignedFunction?, hassigned]
  simp only [Option.bind_eq_bind, Option.bind_some, hbehind, argumentText?_group hargs]
  rfl

theorem ofLine_of_assigned {line path args : Text} {isLocal : Bool}
    (hnone : withLocal? declaredFunction? line = none)
    (h : withLocal? assignedFunction? line = some ((path, args), isLocal)) :
    Declaration.ofLine line = .ofFunction path args isLocal := by
  rw [Declaration.ofLine, hnone, h]
  rfl

theorem ofLine_assigned {path args : Text} (hpath : Dotted path) (hargs : ')' ∉ args)
    (rest : Text) :
    Declaration.ofLine (applied (path ++ " = function".toList) args rest) =
      .ofFunction path args false := by
  have hskip : skipBlanks (applied (path ++ " = function".toList) args rest) =
      applied (path ++ " = function".toList) args rest := by
    rw [applied_assigned]
    exact skipBlanks_of_startsIdentifier (hpath.startsIdentifier _)
  -- Behind a path that happens to be the word `local` neither reader finds anything.
  have hlocal : ∀ reader : Text → Option (Text × Text), reader (assignment args rest) = none →
      (keyword? "local".toList (applied (path ++ " = function".toList) args rest)).bind reader =
        none := by
    intro reader hreader
    rw [applied_assigned]
    cases hkeyword : keyword? "local".toList (path ++ ' ' :: assignment args rest) with
    | none => rfl
    | some r => rwa [keyword?_path (by decide) hpath.isWord hkeyword, Option.bind_some]
  apply ofLine_of_assigned
  · rw [withLocal?, hskip, hlocal declaredFunction? rfl,
      declaredFunction?_assigned hpath.isWord]
    rfl
  · rw [withLocal?, hskip, hlocal assignedFunction? rfl,
      assignedFunction?_assigned hpath hargs]
    rfl

theorem ofLine_assignedLocal {name args : Text} (hname : Identifier name)
    (hargs : ')' ∉ args) (rest : Text) :
    Declaration.ofLine (applied ("local ".toList ++ (name ++ " = function".toList)) args rest) =
      .ofFunction name args true := by
  have hline : applied ("local ".toList ++ (name ++ " = function".toList)) args rest =
      "local".toList ++ ' ' :: applied (name ++ " = function".toList) args rest := by
    simp [applied]
  have hskip : skipBlanks (applied (name ++ " = function".toList) args rest) =
      applied (name ++ " = function".toList) args rest := by
    rw [applied_assigned]
    exact skipBlanks_of_startsIdentifier (startsIdentifier_append hname.start _)
  have hlocal := keyword?_append "local".toList hskip
  have hstart : skipBlanks ("local".toList ++
      ' ' :: applied (name ++ " = function".toList) args rest) =
        "local".toList ++ ' ' :: applied (name ++ " = function".toList) args rest := rfl
  have hfunction : declaredFunction? ("local".toList ++
      ' ' :: applied (name ++ " = function".toList) args rest) = none := rfl
  rw [hline]
  apply ofLine_of_assigned
  · rw [withLocal?, hstart, hlocal, Option.bind_some, declaredFunction?_assigned hname.isWord,
      hfunction]
    rfl
  · rw [withLocal?, hstart, hlocal, Option.bind_some,
      assignedFunction?_assigned hname.dotted hargs]

/-! ## The argument `self` -/

theorem argumentNames_self (args : Text) :
    argumentNames ("self, ".toList ++ args) = argumentNames args := by
  have hcomma : ',' ∉ "self".toList := by decide
  have hself : ("self, ".toList ++ args).splitOn ',' = "self".toList :: (' ' :: args).splitOn ',' :=
    List.splitOn_append_cons_self_of_not_mem hcomma (' ' :: args)
  have hspace : ((' ' :: args).splitOn ',').map trim = (args.splitOn ',').map trim := by
    obtain ⟨first, others, hsplit⟩ := List.exists_cons_of_ne_nil (List.splitOn_ne_nil ',' args)
    rw [List.splitOn_cons_eq_if_modifyHead, if_neg (by decide), hsplit, List.modifyHead_cons,
      List.map_cons, List.map_cons, trim_space]
  have hdropped : (!(trim "self".toList).isEmpty && decide (trim "self".toList ≠ "self".toList)) =
      false := by decide
  simp only [argumentNames, hself, List.map_cons, hspace, List.filter_cons, hdropped]
  rfl

theorem argumentNames_blank {args : Text} (h : isBlankLine args) : argumentNames args = [] := by
  have hcomma : ',' ∉ args := fun hmem =>
    absurd (List.all_eq_true.mp h ',' hmem) (by decide)
  rw [argumentNames, List.splitOn_eq_singleton hcomma, List.map_singleton, trim_of_isBlankLine h]
  rfl

theorem ofFunction_method {path name : Text} (hname : Identifier name) {args args' : Text}
    (h : argumentNames args = argumentNames args') (isLocal : Bool) :
    Declaration.ofFunction (path ++ ':' :: name) args isLocal =
      .ofFunction (path ++ '.' :: name) args' isLocal := by
  rw [Declaration.ofFunction, splitOwner_separated hname.noSeparator rfl, Declaration.ofFunction,
    splitOwner_separated hname.noSeparator rfl, h]

theorem SameForm.ofLine_eq {line line' : Text} (h : SameForm line line') :
    Declaration.ofLine line = Declaration.ofLine line' := by
  induction h with
  | assigned hpath hargs rest =>
      rw [ofLine_declared hpath.endsAtGroup hargs, ofLine_assigned hpath hargs]
  | assignedLocal hname hargs rest =>
      rw [ofLine_declaredLocal hname.dotted.endsAtGroup hargs, ofLine_assignedLocal hname hargs]
  | method hpath hname hargs rest =>
      rw [ofLine_declared (hpath.endsAtGroup_separated hname rfl) hargs,
        ofLine_declared (hpath.endsAtGroup_separated hname rfl) (by simpa using hargs),
        ofFunction_method hname (argumentNames_self _).symm]
  | bareMethod hpath hname hargs rest =>
      have hclose : ∀ {args : Text}, isBlankLine args → ')' ∉ args := fun hblank hmem =>
        absurd (List.all_eq_true.mp hblank ')' hmem) (by decide)
      have hself : argumentNames "self".toList = [] := rfl
      rw [ofLine_declared (hpath.endsAtGroup_separated hname rfl) (hclose hargs),
        ofLine_declared (hpath.endsAtGroup_separated hname rfl) (by decide),
        ofFunction_method hname ((argumentNames_blank hargs).trans hself.symm)]
  | symm _ ih => exact ih.symm

/-! ## Lines of code -/

theorem startsIdentifier_applied {head : Text} (h : ∀ rest, startsIdentifier (head ++ rest))
    (args rest : Text) : startsIdentifier (applied head args rest) :=
  h ('(' :: (args ++ ')' :: rest))

theorem SameForm.startsIdentifier {line line' : Text} (h : SameForm line line') :
    startsIdentifier line ∧ startsIdentifier line' := by
  induction h with
  | assigned hpath _ _ =>
      refine ⟨rfl, startsIdentifier_applied (fun rest => ?_) _ _⟩
      rw [List.append_assoc]
      exact hpath.startsIdentifier _
  | assignedLocal _ _ _ => exact ⟨rfl, rfl⟩
  | method _ _ _ _ => exact ⟨rfl, rfl⟩
  | bareMethod _ _ _ _ => exact ⟨rfl, rfl⟩
  | symm _ ih => exact ih.symm

theorem dropCarriageReturn_applied (head args rest : Text) :
    dropCarriageReturn (applied head args rest) = applied head args (dropCarriageReturn rest) := by
  rw [applied, dropCarriageReturn_append head (by simp), dropCarriageReturn_cons (by decide),
    dropCarriageReturn_append args (by simp), dropCarriageReturn_cons (by decide), applied]

theorem SameForm.dropCarriageReturn {line line' : Text} (h : SameForm line line') :
    SameForm (dropCarriageReturn line) (dropCarriageReturn line') := by
  induction h with
  | assigned hpath hargs rest =>
      simpa only [dropCarriageReturn_applied] using .assigned hpath hargs _
  | assignedLocal hname hargs rest =>
      simpa only [dropCarriageReturn_applied] using .assignedLocal hname hargs _
  | method hpath hname hargs rest =>
      simpa only [dropCarriageReturn_applied] using .method hpath hname hargs _
  | bareMethod hpath hname hargs rest =>
      simpa only [dropCarriageReturn_applied] using .bareMethod hpath hname hargs _
  | symm _ ih => exact ih.symm

section Indented

variable {indent : Text} (hindent : ∀ c ∈ indent, isBlank c)
include hindent

theorem skipBlanks_indented (line : Text) : skipBlanks (indent ++ line) = skipBlanks line :=
  List.dropWhile_append_of_pos hindent

theorem withLocal?_indented {α : Type} (reader : Text → Option α) (line : Text) :
    withLocal? reader (indent ++ line) = withLocal? reader line := by
  simp only [withLocal?, skipBlanks_indented hindent]

theorem ofLine_indented (line : Text) :
    Declaration.ofLine (indent ++ line) = Declaration.ofLine line := by
  simp only [Declaration.ofLine, withLocal?_indented hindent]

theorem ofText_indented {line : Text} (h : startsIdentifier line) :
    SourceLine.ofText (indent ++ line) = .code (indent ++ line) := by
  have hskip : skipBlanks (indent ++ line) = line :=
    (skipBlanks_indented hindent line).trans (skipBlanks_of_startsIdentifier h)
  cases line with
  | nil => cases h
  | cons c line =>
      have hspace : isWhitespace c = false := isWhitespace_of_isTagChar h
      have hdash : c ≠ '-' := by
        rintro rfl
        cases h
      have hseparator : isSeparator (indent ++ c :: line) = false := by
        simp [isSeparator, hskip, hdash]
      have hdoc : docContent? (indent ++ c :: line) = none := by
        simp [docContent?, hskip, dropPrefix?, hdash.symm]
      have htrim : [c] <+: trim (indent ++ c :: line) := by
        rw [trim_whitespace_append fun d hd => isWhitespace_of_isBlank (hindent d hd), trim,
          trimStart, List.dropWhile_cons_of_neg (by simp [hspace])]
        exact prefix_trimEnd_append (s := [c]) (by simp [trimEnd, dropEndWhile, hspace]) line
      have hgap : isGap (indent ++ c :: line) = false := by
        obtain ⟨rest, hrest⟩ := htrim
        simp [isGap, ← hrest, List.isPrefixOf, hdash.symm]
      rw [SourceLine.ofText, hseparator, hdoc, hgap]
      rfl

end Indented

/-! ## Sources -/

/-- Two lines that the reader does the same with, whatever it has read so far. -/
def SameLine (line line' : Text) : Prop :=
  ∀ (r : Reading) (n : ℕ), r.step n line = r.step n line'

theorem SameLine.refl (line : Text) : SameLine line line :=
  fun _ _ => rfl

theorem SameForm.sameLine {line line' indent : Text} (h : SameForm line line')
    (hindent : ∀ c ∈ indent, isBlank c) : SameLine (indent ++ line) (indent ++ line') := by
  intro r n
  obtain ⟨hline, hline'⟩ := h.startsIdentifier
  simp only [Reading.step, ofText_indented hindent hline, ofText_indented hindent hline',
    ofLine_indented hindent, h.ofLine_eq]

theorem run_sameLine {lines lines' : List Text} (h : List.Forall₂ SameLine lines lines')
    (r : Reading) (n : ℕ) : r.run (lines.zipIdx n) = r.run (lines'.zipIdx n) := by
  induction h generalizing r n with
  | nil => rfl
  | cons hline _ ih =>
      simp only [Reading.run, List.zipIdx_cons, List.foldlM_cons, hline r n]
      exact congrArg _ (funext fun r' => ih r' (n + 1))

theorem sameLine_linesOfPieces {line line' indent : Text} (h : SameForm line line')
    (hindent : ∀ c ∈ indent, isBlank c) (front back : List Text) :
    List.Forall₂ SameLine (linesOfPieces (front ++ (indent ++ line) :: back))
      (linesOfPieces (front ++ (indent ++ line') :: back)) := by
  have hrefl : ∀ ls : List Text, List.Forall₂ SameLine ls ls :=
    fun ls => List.forall₂_same.mpr fun line _ => SameLine.refl line
  rw [linesOfPieces_append front (by simp), linesOfPieces_append front (by simp)]
  refine List.rel_append (hrefl _) ?_
  obtain ⟨hne, hne'⟩ : line ≠ [] ∧ line' ≠ [] := by
    constructor <;> rintro rfl
    · cases h.startsIdentifier.1
    · cases h.startsIdentifier.2
  cases back with
  | nil => simpa [linesOfPieces, hne, hne'] using h.sameLine hindent
  | cons next back =>
      have hback : next :: back ≠ [] := by simp
      rw [linesOfPieces_cons _ hback, linesOfPieces_cons _ hback,
        dropCarriageReturn_append indent hne, dropCarriageReturn_append indent hne']
      exact .cons (h.dropCarriageReturn.sameLine hindent) (hrefl _)

/-- A source documents the same with any line in another form of its declaration. -/
theorem readAt_sameForm {source line line' indent : Text} {front back : List Text}
    (hsource : source.splitOn '\n' = front ++ (indent ++ line) :: back)
    (hindent : ∀ c ∈ indent, isBlank c) (h : SameForm line line') (hline' : '\n' ∉ line')
    (path : Text) :
    readAt path (join ['\n'] (front ++ (indent ++ line') :: back)) = readAt path source := by
  have hpiece : ∀ piece ∈ source.splitOn '\n', '\n' ∉ piece :=
    fun piece hp => not_mem_of_mem_splitOn hp
  have hindent' : '\n' ∉ indent := fun hmem => absurd (hindent '\n' hmem) (by decide)
  have hsplit : (join ['\n'] (front ++ (indent ++ line') :: back)).splitOn '\n' =
      front ++ (indent ++ line') :: back := by
    apply List.splitOn_intercalate
    · intro piece hp
      rcases List.mem_append.mp hp with hfront | hback
      · exact hpiece piece (hsource ▸ List.mem_append_left _ hfront)
      · rcases List.mem_cons.mp hback with rfl | hback
        · simp [hindent', hline']
        · exact hpiece piece (hsource ▸ List.mem_append_right _ (List.mem_cons_of_mem _ hback))
    · simp
  have hlines := sameLine_linesOfPieces h hindent front back
  rw [← hsplit, ← hsource] at hlines
  simp only [readAt, readSource, numberedLines, lines, run_sameLine hlines]

/-- A method below its class, and the same method as a function that takes `self`. -/
theorem readAt_sameForm_method :
    let front := ["--- @class A".toList, "A = make()".toList, "--- Adds.".toList]
    let method := "function A:add(x) -- sums up\r".toList
    let method' := "function A.add(self, x) -- sums up\r".toList
    let back := ["return A".toList, []]
    let source := join ['\n'] (front ++ ("\t".toList ++ method) :: back)
    source.splitOn '\n' = front ++ ("\t".toList ++ method) :: back ∧
      (∀ c ∈ "\t".toList, isBlank c) ∧ SameForm method method' ∧ '\n' ∉ method' ∧
      readAt "a.lua".toList (join ['\n'] (front ++ ("\t".toList ++ method') :: back)) =
        readAt "a.lua".toList source := by
  intro front method method' back source
  have hsource : source.splitOn '\n' = front ++ ("\t".toList ++ method) :: back := by decide
  have hforms : SameForm method method' :=
    @SameForm.method "A".toList "add".toList "x".toList (by decide) (by decide) (by decide)
      " -- sums up\r".toList
  have hindent : ∀ c ∈ "\t".toList, isBlank c := by simp [isBlank]
  have hline : '\n' ∉ method' := by decide
  exact ⟨hsource, hindent, hforms, hline,
    readAt_sameForm hsource hindent hforms hline "a.lua".toList⟩

end DocComment
end ApiManual
