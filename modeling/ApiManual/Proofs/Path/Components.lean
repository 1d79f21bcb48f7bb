import ApiManual.Path
import ApiManual.Proofs.Text.Edges
import Mathlib.Data.List.Lex

/-!
# Components of joined paths

A path is read off its pieces.  Joining a path to a base puts the components of its pieces
behind those of the base, however the base is spelled.
-/

namespace ApiManual
namespace Path

/-! ## Pieces -/

/-- A name that stands for itself between the slashes of a path. -/
structure IsName (name : Text) : Prop where
  counts : pieceComponent? name = some (.normal name)
  noSlash : '/' ∉ name

instance (name : Text) : Decidable (IsName name) :=
  decidable_of_iff (pieceComponent? name = some (.normal name) ∧ '/' ∉ name)
    ⟨fun h => ⟨h.1, h.2⟩, fun h => ⟨h.counts, h.noSlash⟩⟩

/-- The components that a path has when it is seen from a directory. -/
def inner (path : Text) : List Component :=
  (path.splitOn '/').filterMap pieceComponent?

/-- The path of a place below a directory. -/
def ofNames (names : List Text) : Text :=
  Text.join ['/'] names

theorem splitOn_slash (front behind : Text) :
    (front ++ '/' :: behind).splitOn '/' = front.splitOn '/' ++ behind.splitOn '/' :=
  List.splitOn_append_cons_self front behind

theorem splitOn_of_noSlash {s : Text} (h : '/' ∉ s) : s.splitOn '/' = [s] :=
  List.splitOn_eq_singleton h

theorem noSlash_of_mem_splitOn {path piece : Text} (h : piece ∈ path.splitOn '/') :
    '/' ∉ piece :=
  Text.not_mem_of_mem_splitOn h

theorem pieceComponent?_eq_none_iff {piece : Text} :
    pieceComponent? piece = none ↔ piece = [] ∨ piece = ['.'] := by
  unfold pieceComponent?
  split
  · rename_i h
    simpa using h
  · rename_i h
    rw [Bool.or_eq_true, decide_eq_true_eq, decide_eq_true_eq] at h
    split <;> simp [h]

theorem pieceComponent?_ne_current (piece : Text) : pieceComponent? piece ≠ some .current := by
  unfold pieceComponent?
  split
  · simp
  · split <;> simp

theorem current_not_mem_filterMap (pieces : List Text) :
    .current ∉ pieces.filterMap pieceComponent? := by
  intro h
  obtain ⟨piece, -, hpiece⟩ := List.mem_filterMap.mp h
  exact pieceComponent?_ne_current piece hpiece

theorem IsName.ne_nil {name : Text} (h : IsName name) : name ≠ [] := by
  rintro rfl
  exact absurd h.counts (by decide)

theorem isName_iff {name : Text} :
    IsName name ↔ name ≠ [] ∧ name ≠ ['.'] ∧ name ≠ ['.', '.'] ∧ '/' ∉ name := by
  constructor
  · intro h
    refine ⟨h.ne_nil, ?_, ?_, h.noSlash⟩
    · rintro rfl
      exact absurd h.counts (by decide)
    · rintro rfl
      exact absurd h.counts (by decide)
  · rintro ⟨hempty, hdot, hdots, hslash⟩
    exact ⟨by simp [pieceComponent?, hempty, hdot, hdots], hslash⟩

theorem isAbsolute_of_noSlash {piece : Text} (h : '/' ∉ piece) : isAbsolute piece = false := by
  cases piece with
  | nil => rfl
  | cons c piece =>
      have hc : c ≠ '/' := by
        rintro rfl
        exact h List.mem_cons_self
      simp [isAbsolute, hc]

/-! ## Components -/

theorem components_eq (path : Text) :
    components path =
      (if isAbsolute path then [.root]
        else if (path.splitOn '/').head? = some ['.'] then [.current] else []) ++ inner path :=
  rfl

theorem steps_eq (path : Text) :
    steps path = (if isAbsolute path then [.root] else []) ++ inner path := by
  have hinner : (inner path).filter (· ≠ .current) = inner path := by
    apply List.filter_eq_self.mpr
    intro c hc
    have hne : c ≠ .current := by
      rintro rfl
      exact current_not_mem_filterMap _ hc
    simpa using hne
  rw [steps, components_eq, List.filter_append, hinner]
  split
  · rfl
  · split <;> rfl

theorem inner_of_noSlash {piece : Text} (h : '/' ∉ piece) :
    inner piece = (pieceComponent? piece).toList := by
  rw [inner, splitOn_of_noSlash h, List.filterMap_cons]
  cases pieceComponent? piece <;> rfl

theorem components_of_noSlash {piece : Text} (h : '/' ∉ piece) (hdot : piece ≠ ['.']) :
    components piece = (pieceComponent? piece).toList := by
  rw [components_eq, isAbsolute_of_noSlash h, splitOn_of_noSlash h, inner_of_noSlash h]
  simp [hdot]

theorem inner_slash (front behind : Text) :
    inner (front ++ '/' :: behind) = inner front ++ inner behind := by
  rw [inner, splitOn_slash, List.filterMap_append]
  rfl

theorem ofNames_cons_cons (name next : Text) (names : List Text) :
    ofNames (name :: next :: names) = name ++ '/' :: ofNames (next :: names) :=
  Text.join_cons_cons ['/'] name next names

theorem splitOn_ofNames {names : List Text} (hne : names ≠ []) (h : ∀ name ∈ names, '/' ∉ name) :
    (ofNames names).splitOn '/' = names :=
  List.splitOn_intercalate '/' h hne

theorem inner_ofNames {names : List Text} (h : ∀ name ∈ names, IsName name) :
    inner (ofNames names) = names.map .normal := by
  by_cases hne : names = []
  · rw [hne]
    rfl
  · rw [inner, splitOn_ofNames hne fun name hname => (h name hname).noSlash,
      List.filterMap_eq_map_iff_forall_eq_some]
    intro name hname
    exact (h name hname).counts

/-- A path whose first piece has characters begins with them. -/
theorem isAbsolute_of_splitOn {path piece : Text} {rest : List Text}
    (h : path.splitOn '/' = piece :: rest) (hpiece : piece ≠ []) : isAbsolute path = false := by
  cases path with
  | nil => rfl
  | cons c path =>
      have hc : c ≠ '/' := by
        rintro rfl
        have hsplit : ('/' :: path).splitOn '/' = [] :: path.splitOn '/' := splitOn_slash [] path
        rw [hsplit] at h
        exact hpiece (List.cons.inj h).1.symm
      simp [isAbsolute, hc]

theorem isAbsolute_of_prefix {front path : Text} (h : front <+: path) (hfront : front ≠ []) :
    isAbsolute front = isAbsolute path := by
  obtain ⟨behind, rfl⟩ := h
  obtain ⟨c, rest, rfl⟩ := List.exists_cons_of_ne_nil hfront
  rfl

theorem isAbsolute_ofNames {names : List Text} (h : ∀ name ∈ names, IsName name) :
    isAbsolute (ofNames names) = false := by
  cases names with
  | nil => rfl
  | cons name names =>
      have hsplit := splitOn_ofNames (by simp) fun name hname => (h name hname).noSlash
      exact isAbsolute_of_splitOn hsplit (h name List.mem_cons_self).ne_nil

theorem components_ofNames {names : List Text} (h : ∀ name ∈ names, IsName name) :
    components (ofNames names) = names.map .normal := by
  have hcurrent : ((ofNames names).splitOn '/').head? ≠ some ['.'] := by
    cases names with
    | nil => decide
    | cons name names =>
        have hname := (isName_iff.mp (h name List.mem_cons_self)).2.1
        rw [splitOn_ofNames (by simp) fun name hname => (h name hname).noSlash]
        simpa using hname
  rw [components_eq, isAbsolute_ofNames h, if_neg (by simp), if_neg hcurrent, inner_ofNames h]
  rfl

/-! ## Joined paths -/

/-- The pieces of a base in front of what is joined to it.  A slash at the end of the base
opens none. -/
def basePieces (base : Text) : List Text :=
  if base.getLast? = some '/' then base.dropLast.splitOn '/' else base.splitOn '/'

theorem splitOn_eq_basePieces (base : Text) :
    base.splitOn '/' =
      basePieces base ++ if base.getLast? = some '/' then [[]] else [] := by
  unfold basePieces
  split
  · rename_i hlast
    obtain ⟨front, rfl⟩ := List.getLast?_eq_some_iff.mp hlast
    rw [List.dropLast_concat, splitOn_slash, List.splitOn_nil]
  · rw [List.append_nil]

theorem basePieces_ne_nil (base : Text) : basePieces base ≠ [] := by
  unfold basePieces
  split <;> exact List.splitOn_ne_nil _ _

theorem filterMap_basePieces (base : Text) :
    (basePieces base).filterMap pieceComponent? = inner base := by
  rw [inner, splitOn_eq_basePieces, List.filterMap_append]
  split
  · exact (List.append_nil _).symm
  · exact (List.append_nil _).symm

theorem join_eq {base path : Text} (hbase : base ≠ []) (hpath : isAbsolute path = false) :
    join base path =
      (if base.getLast? = some '/' then base else base ++ ['/']) ++ path := by
  have hempty : base.isEmpty = false := by simpa using hbase
  unfold join
  rw [hpath, hempty]
  by_cases hlast : base.getLast? = some '/'
  · simp [hlast]
  · simp [hlast]

theorem splitOn_join {base path : Text} (hbase : base ≠ []) (hpath : isAbsolute path = false) :
    (join base path).splitOn '/' = basePieces base ++ path.splitOn '/' := by
  rw [join_eq hbase hpath, basePieces]
  split
  · rename_i hlast
    obtain ⟨front, rfl⟩ := List.getLast?_eq_some_iff.mp hlast
    rw [List.dropLast_concat, List.append_assoc, List.singleton_append, splitOn_slash]
  · rw [List.append_assoc, List.singleton_append, splitOn_slash]

theorem isAbsolute_join {base path : Text} (hbase : base ≠ []) (hpath : isAbsolute path = false) :
    isAbsolute (join base path) = isAbsolute base := by
  rw [join_eq hbase hpath]
  obtain ⟨c, rest, rfl⟩ := List.exists_cons_of_ne_nil hbase
  split <;> rfl

theorem inner_join {base path : Text} (hbase : base ≠ []) (hpath : isAbsolute path = false) :
    inner (join base path) = inner base ++ inner path := by
  rw [inner, splitOn_join hbase hpath, List.filterMap_append, filterMap_basePieces]
  rfl

theorem components_join {base path : Text} (hbase : base ≠ []) (hpath : isAbsolute path = false) :
    components (join base path) = components base ++ inner path := by
  have hfront : (basePieces base ++ path.splitOn '/').head? = (base.splitOn '/').head? := by
    rw [List.head?_append_of_ne_nil _ (basePieces_ne_nil base), splitOn_eq_basePieces base,
      List.head?_append_of_ne_nil _ (basePieces_ne_nil base)]
  rw [components_eq, components_eq, isAbsolute_join hbase hpath, splitOn_join hbase hpath, hfront,
    inner_join hbase hpath, List.append_assoc]

theorem steps_of_relative {path : Text} (h : isAbsolute path = false) :
    steps path = inner path := by
  rw [steps_eq, h]
  rfl

theorem steps_join (base : Text) {path : Text} (hpath : isAbsolute path = false) :
    steps (join base path) = steps base ++ inner path := by
  by_cases hbase : base = []
  · subst hbase
    have hjoin : join [] path = path := by simp [join, hpath]
    rw [hjoin, steps_of_relative hpath]
    rfl
  · rw [steps_eq, steps_eq, isAbsolute_join hbase hpath, inner_join hbase hpath, List.append_assoc]

end Path
end ApiManual
