import ApiManual.TypeExpr.Extent
import ApiManual.Unicode.Number
import ApiManual.Doc

/-!
# Parsing type expressions

`TypeExpr.split` takes the type off the front of an operand, and `TypeExpr.parse` reads
a whole expression.  An expression that is one callable from end to end is taken apart
into its arguments and returns, which are read in turn; every other expression is one
of the builtin types or is kept by name.
-/

namespace ApiManual.TypeExpr

/-- The type expression in front of a text, and the trimmed text behind it.  The type is
empty where the text has none. -/
def split (s : Text) : Except TypeError (Text × Text) :=
  let start := Text.trimStart s
  (afterUnion start).map fun rest =>
    (start.take (start.length - rest.length), Text.trim rest)

/-- Takes off the `?` that marks an optional type or name.  A lone `?` is kept. -/
def stripOptional (s : Text) : Text × Bool :=
  if s.length ≥ 2 && s.getLast? = some '?' then (s.dropLast, true) else (s, false)

def isIdentifier : Text → Bool
  | [] => false
  | c :: rest =>
    (Unicode.isAlphabetic c || c = '_') &&
      rest.all fun c => Unicode.isAlphanumeric c || c = '_'

/-- The type of an argument `name: type`, or the whole argument where no name is given. -/
def argumentType (arg : Text) : Text :=
  match cutAtTop ':' 0 arg with
  | some (front, behind) =>
    let name := Text.trim front
    if name = "...".toList || isIdentifier name then Text.trim behind else arg
  | none => arg

/-- The trimmed parts between top-level commas, without the empty ones. -/
def components (list : Text) : List Text :=
  ((splitTop ',' list).map Text.trim).filter (!·.isEmpty)

/-- The inside of a text that is one group in round brackets, any other text as it is. -/
def ungroup (s : Text) : Text :=
  match s with
  | '(' :: _ =>
    match cutAtClose 0 s with
    | some (inside, []) => inside.drop 1
    | _ => s
  | _ => s

/-- The argument types and the return types in the text of a callable. -/
def callableParts (args : Text) : List Text × List Text :=
  match cutAtClose 0 args with
  | none => ([], [])
  | some (inside, behind) =>
    ((components (inside.drop 1)).map argumentType,
      match Text.trimStart behind with
      | ':' :: ret => components (ungroup (Text.trim ret))
      | _ => [])

/-- The arguments and returns of a text that is one callable from end to end. -/
def callable? (s : Text) : Option (List Text × List Text) :=
  match argumentList? s with
  | none => none
  | some args =>
    match afterPrimary s with
    | .ok [] => some (callableParts args)
    | _ => none

/-- The type that an expression other than a callable stands for. -/
def simple (s : Text) : LuaType :=
  if s = "any".toList then .any
  else if s = "string".toList then .string
  else if s = "boolean".toList || s = "bool".toList then .boolean
  else if s = "function".toList then .function s
  else .named s

theorem length_le_of_mem_components {list part : Text} (h : part ∈ components list) :
    part.length ≤ list.length := by
  simp only [components, List.mem_filter, List.mem_map] at h
  obtain ⟨⟨raw, hmem, rfl⟩, -⟩ := h
  exact Nat.le_trans (Text.length_trim_le raw) (length_le_of_mem_splitTop hmem)

theorem length_argumentType_le (arg : Text) : (argumentType arg).length ≤ arg.length := by
  unfold argumentType
  split
  · rename_i front behind hcut
    have h₁ := length_cutAtTop hcut
    have h₂ := Text.length_trim_le behind
    simp only
    split <;> omega
  · exact Nat.le_refl _

theorem length_ungroup_le (s : Text) : (ungroup s).length ≤ s.length := by
  unfold ungroup
  split
  · split
    · rename_i inside hcut
      have := length_cutAtClose hcut
      simp only [List.length_drop, List.length_nil] at *
      omega
    · exact Nat.le_refl _
  · exact Nat.le_refl _

theorem length_lt_of_mem_callableParts {args part : Text}
    (h : part ∈ (callableParts args).1 ∨ part ∈ (callableParts args).2) :
    part.length ≤ args.length := by
  unfold callableParts at h
  split at h
  · simp at h
  · rename_i inside behind hcut
    have hlen := length_cutAtClose hcut
    rcases h with h | h
    · obtain ⟨arg, hmem, rfl⟩ := List.mem_map.mp h
      have h₁ := length_argumentType_le arg
      have h₂ := length_le_of_mem_components hmem
      simp only [List.length_drop] at h₂
      omega
    · simp only at h
      split at h
      · rename_i ret heq
        have h₁ := length_le_of_mem_components h
        have h₂ := length_ungroup_le (Text.trim ret)
        have h₃ := Text.length_trim_le ret
        have h₄ := Text.length_trimStart_le behind
        rw [heq] at h₄
        simp only [List.length_cons] at h₄
        omega
      · simp at h

/-- Every component of a callable is shorter than the callable. -/
theorem length_lt_of_callable? {s part : Text} {args returns : List Text}
    (h : callable? s = some (args, returns)) (hmem : part ∈ args ∨ part ∈ returns) :
    part.length < s.length := by
  unfold callable? at h
  split at h
  · cases h
  · rename_i list hargs
    split at h
    · simp only [Option.some.injEq] at h
      have h₁ := length_argumentList? hargs
      have h₂ : part.length ≤ list.length :=
        length_lt_of_mem_callableParts (by rw [h]; exact hmem)
      omega
    · cases h

/-- Reads a complete type expression. -/
def parse (s : Text) : Except TypeError LuaType :=
  let t := Text.trim s
  if t.isEmpty then
    .error .empty
  else
    match afterUnion t with
    | .error e => .error e
    | .ok (c :: rest) => .error (.unexpected (c :: rest))
    | .ok [] =>
      match _hparts : callable? t with
      | none => .ok (simple t)
      | some (args, returns) => do
        let argTypes ← args.attach.mapM fun part => parse part.1
        let returnTypes ← returns.attach.mapM fun part => parse part.1
        return .callable argTypes returnTypes
termination_by s.length
decreasing_by
  · have h₁ := length_lt_of_callable? _hparts (.inl part.2)
    have h₂ : t.length ≤ s.length := Text.length_trim_le s
    omega
  · have h₁ := length_lt_of_callable? _hparts (.inr part.2)
    have h₂ : t.length ≤ s.length := Text.length_trim_le s
    omega

theorem mapM_attach {α β ε : Type} (f : α → Except ε β) (l : List α) :
    (l.attach.mapM fun x => f x.1) = l.mapM f := by
  have h := List.mapM_subtype (l := l.attach) (f := fun x => f x.1) (g := f) fun _ _ => rfl
  simp [h]

/-- The recursion of `parse` without the proofs that it ends. -/
theorem parse_eq (s : Text) :
    parse s =
      if (Text.trim s).isEmpty then
        .error .empty
      else
        match afterUnion (Text.trim s) with
        | .error e => .error e
        | .ok (c :: rest) => .error (.unexpected (c :: rest))
        | .ok [] =>
          match callable? (Text.trim s) with
          | none => .ok (simple (Text.trim s))
          | some (args, returns) => do
            let argTypes ← args.mapM parse
            let returnTypes ← returns.mapM parse
            return .callable argTypes returnTypes := by
  rw [parse]
  simp only [mapM_attach parse]
  split
  · rfl
  · cases afterUnion (Text.trim s) with
    | error e => rfl
    | ok rest =>
      cases rest with
      | cons c rest => rfl
      | nil =>
        simp only
        split <;> simp_all

end ApiManual.TypeExpr
