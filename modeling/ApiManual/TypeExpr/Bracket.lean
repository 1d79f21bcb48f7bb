import ApiManual.Text.Basic

/-!
# Brackets

Brackets of all four kinds share one count.  A group runs from an opening bracket to
the first character that brings the count back to zero, and a separator stands at the
top level where the count is zero.  The count never falls below zero, so a stray
closing bracket is passed over.
-/

namespace ApiManual.TypeExpr

def isOpening (c : Char) : Bool :=
  c = '(' || c = '<' || c = '\x7b' || c = '['

def isClosing (c : Char) : Bool :=
  c = ')' || c = '>' || c = '\x7d' || c = ']'

/-- The number of open brackets behind `c`, with `depth` of them in front. -/
def depthAfter (depth : Nat) (c : Char) : Nat :=
  if isOpening c then depth + 1 else if isClosing c then depth - 1 else depth

/-- Cuts a text at the bracket that closes the last of `depth` open ones: what stands in
front of that bracket, and what stands behind it. -/
def cutAtClose : Nat → Text → Option (Text × Text)
  | _, [] => none
  | depth, c :: rest =>
    if isClosing c && depthAfter depth c = 0 then
      some ([], rest)
    else
      (cutAtClose (depthAfter depth c) rest).map fun (inside, behind) => (c :: inside, behind)

theorem length_cutAtClose {depth : Nat} {s inside behind : Text}
    (h : cutAtClose depth s = some (inside, behind)) :
    s.length = inside.length + behind.length + 1 := by
  induction s generalizing depth inside with
  | nil => simp [cutAtClose] at h
  | cons c s ih =>
    simp only [cutAtClose] at h
    split at h
    · simp_all
    · obtain ⟨⟨inner, rest⟩, hcut, heq⟩ := Option.map_eq_some_iff.mp h
      simp only [Prod.mk.injEq] at heq
      obtain ⟨rfl, rfl⟩ := heq
      have := ih hcut
      simp only [List.length_cons]
      omega

/-- Cuts a text at the first `separator` at the top level, `depth` brackets being open
in front of it. -/
def cutAtTop (separator : Char) : Nat → Text → Option (Text × Text)
  | _, [] => none
  | depth, c :: rest =>
    if c = separator && depth = 0 then
      some ([], rest)
    else
      (cutAtTop separator (depthAfter depth c) rest).map
        fun (front, behind) => (c :: front, behind)

theorem length_cutAtTop {separator : Char} {depth : Nat} {s front behind : Text}
    (h : cutAtTop separator depth s = some (front, behind)) :
    s.length = front.length + behind.length + 1 := by
  induction s generalizing depth front with
  | nil => simp [cutAtTop] at h
  | cons c s ih =>
    simp only [cutAtTop] at h
    split at h
    · simp_all
    · obtain ⟨⟨inner, rest⟩, hcut, heq⟩ := Option.map_eq_some_iff.mp h
      simp only [Prod.mk.injEq] at heq
      obtain ⟨rfl, rfl⟩ := heq
      have := ih hcut
      simp only [List.length_cons]
      omega

/-- The parts of a text between its top-level separators. -/
def splitTop (separator : Char) (s : Text) : List Text :=
  match _h : cutAtTop separator 0 s with
  | some (front, behind) => front :: splitTop separator behind
  | none => [s]
termination_by s.length
decreasing_by
  have := length_cutAtTop _h
  omega

theorem length_le_of_mem_splitTop {separator : Char} {s part : Text}
    (h : part ∈ splitTop separator s) : part.length ≤ s.length := by
  fun_induction splitTop separator s with
  | case1 s front behind hcut ih =>
    have hlen := length_cutAtTop hcut
    rcases List.mem_cons.mp h with rfl | hmem
    · omega
    · have := ih hmem
      omega
  | case2 s hnone =>
    simp only [List.mem_singleton] at h
    simp [h]

end ApiManual.TypeExpr
