import ApiManual.Text.Basic

/-!
# Name patterns

A pattern for one name of a path: `?` stands for any character, `*` for any text,
`[...]` for one of the characters it lists and `[!...]` for any other, and the pattern
`**` for any number of directories.
-/

namespace ApiManual.Glob

/-- A member of a bracketed list: the characters from the first to the last. -/
abbrev CharRange := Char × Char

inductive Token
  | char (c : Char)
  | anyChar
  | anyText
  | oneOf (ranges : List CharRange)
  | noneOf (ranges : List CharRange)
  deriving DecidableEq, Inhabited

inductive Pattern
  | anyDepth
  | name (tokens : List Token)
  deriving DecidableEq, Inhabited

/-- The ranges in a bracketed list; `a-z` is a range and everything else stands for
itself. -/
def charRanges : Text → List CharRange
  | a :: '-' :: b :: rest => (a, b) :: charRanges rest
  | c :: rest => (c, c) :: charRanges rest
  | [] => []

/-- Cuts a bracketed list at its closing bracket.  The list has at least one character,
so a bracket in front belongs to it. -/
def cutList? : Text → Option (Text × Text)
  | [] => none
  | c :: rest =>
    match rest.dropWhile (· ≠ ']') with
    | _ :: behind => some (c :: rest.takeWhile (· ≠ ']'), behind)
    | [] => none

/-- The token of a bracketed list, without its opening bracket, and the text behind it. -/
def listToken? (s : Text) : Option (Token × Text) :=
  match s with
  | '!' :: rest => (cutList? rest).map fun (list, behind) => (.noneOf (charRanges list), behind)
  | _ => (cutList? s).map fun (list, behind) => (.oneOf (charRanges list), behind)

theorem length_cutList? {s list behind : Text} (h : cutList? s = some (list, behind)) :
    behind.length < s.length := by
  unfold cutList? at h
  split at h
  · cases h
  · rename_i c rest
    split at h
    · rename_i b tail heq
      simp only [Option.some.injEq, Prod.mk.injEq] at h
      have hle := Text.length_dropWhile_le (· ≠ ']') rest
      rw [heq] at hle
      simp only [List.length_cons] at *
      rw [← h.2]
      omega
    · cases h

theorem length_listToken? {s behind : Text} {token : Token}
    (h : listToken? s = some (token, behind)) : behind.length < s.length := by
  unfold listToken? at h
  split at h <;>
  · obtain ⟨⟨list, rest⟩, hcut, heq⟩ := Option.map_eq_some_iff.mp h
    simp only [Prod.mk.injEq] at heq
    have := length_cutList? hcut
    simp only [List.length_cons] at *
    rw [← heq.2]
    omega

/-- The tokens of a pattern for a name.  Two stars in a row make no such pattern. -/
def tokens? (s : Text) : Option (List Token) :=
  match s with
  | [] => some []
  | '?' :: rest => (tokens? rest).map (.anyChar :: ·)
  | '*' :: '*' :: _ => none
  | '*' :: rest => (tokens? rest).map (.anyText :: ·)
  | '[' :: rest =>
    match _h : listToken? rest with
    | some (token, behind) => (tokens? behind).map (token :: ·)
    | none => none
  | c :: rest => (tokens? rest).map (.char c :: ·)
termination_by s.length
decreasing_by
  all_goals simp only [List.length_cons]
  case _ => omega
  case _ => omega
  case _ =>
    have := length_listToken? _h
    omega
  case _ => omega

def Pattern.ofText? (s : Text) : Option Pattern :=
  if s = ['*', '*'] then some .anyDepth else (tokens? s).map .name

def inRanges (ranges : List CharRange) (c : Char) : Bool :=
  ranges.any fun (first, last) => first ≤ c && c ≤ last

def Token.accepts (c : Char) : Token → Bool
  | .char d => c = d
  | .anyChar => true
  | .anyText => true
  | .oneOf ranges => inRanges ranges c
  | .noneOf ranges => !inRanges ranges c

def suffixes : Text → List Text
  | [] => [[]]
  | c :: rest => (c :: rest) :: suffixes rest

def accepts : List Token → Text → Bool
  | [], s => s.isEmpty
  | .anyText :: tokens, s => (suffixes s).any (accepts tokens)
  | token :: tokens, s =>
    match s with
    | [] => false
    | c :: rest => token.accepts c && accepts tokens rest

def Pattern.accepts : Pattern → Text → Bool
  | .anyDepth, _ => true
  | .name tokens, s => Glob.accepts tokens s

def Token.char? : Token → Option Char
  | .char c => some c
  | _ => none

/-- The one name that a pattern without special characters stands for. -/
def Pattern.literal? : Pattern → Option Text
  | .anyDepth => none
  | .name tokens => tokens.mapM Token.char?

def Pattern.startsWithDot : Pattern → Bool
  | .name (.char '.' :: _) => true
  | _ => false

/-- Writes a text so that it stands for itself. -/
def escape (s : Text) : Text :=
  s.flatMap fun c =>
    if c = '?' || c = '*' || c = '[' || c = ']' then ['[', c, ']'] else [c]

end ApiManual.Glob
