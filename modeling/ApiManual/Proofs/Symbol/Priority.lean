import ApiManual.Proofs.Symbol.Registration
import ApiManual.Proofs.Text.Replacement
import ApiManual.Symbol.Link

/-!
# Which name a link belongs to

The passes of the link rewriter work on a changing text.  Between two characters that
no name contains they work on their own, and there the entries in front of a name are
too long to touch it.
-/

namespace ApiManual
namespace Symbol

/-- The passes of a list of entries, one behind the other. -/
def substituteAll (mode : LinkMode) (es : List Entry) (text : Text) : Text :=
  es.foldl (fun text e => e.substitute mode text) text

theorem Index.substitute_eq (index : Index) (mode : LinkMode) (text : Text) :
    index.substitute mode text = substituteAll mode index.entries text := rfl

theorem substituteAll_append (mode : LinkMode) (es es' : List Entry) (text : Text) :
    substituteAll mode (es ++ es') text =
      substituteAll mode es' (substituteAll mode es text) := by
  simp [substituteAll]

theorem substituteAll_cons (mode : LinkMode) (e : Entry) (es : List Entry) (text : Text) :
    substituteAll mode (e :: es) text = substituteAll mode es (e.substitute mode text) := rfl

theorem substituteAll_append_cons {mode : LinkMode} {es : List Entry} {c : Char}
    (hc : ∀ e ∈ es, c ∉ e.symbol) (a b : Text) :
    substituteAll mode es (a ++ c :: b) =
      substituteAll mode es a ++ c :: substituteAll mode es b := by
  induction es generalizing a b with
  | nil => rfl
  | cons e es ih =>
      rw [List.forall_mem_cons] at hc
      have hpass : e.substitute mode (a ++ c :: b) =
          e.substitute mode a ++ c :: e.substitute mode b :=
        Text.replace_append_cons _ hc.1 a b
      rw [substituteAll_cons, hpass, ih hc.2]
      rfl

theorem substituteAll_eq_self {mode : LinkMode} {es : List Entry} {text : Text}
    (h : ∀ e ∈ es, ¬ e.symbol <:+: text) : substituteAll mode es text = text := by
  induction es with
  | nil => rfl
  | cons e es ih =>
      rw [List.forall_mem_cons] at h
      have hpass : e.substitute mode text = text := Text.replace_eq_self _ h.1
      rw [substituteAll_cons, hpass, ih h.2]

/-- No name that comes earlier in the index occurs in a name. -/
theorem not_infix_of_mem_front {modules : List (ModuleDoc × Text)}
    {front back : List Entry} {e : Entry}
    (hindex : (Index.ofModules modules).entries = front ++ e :: back)
    {d : Entry} (hd : d ∈ front) : ¬ d.symbol <:+: e.symbol := by
  have hlen := ofModules_before hindex hd
  have hne : d.symbol ≠ e.symbol := by
    have hnodup := nodup_ofModules modules
    rw [hindex, List.map_append, List.nodup_append] at hnodup
    exact hnodup.2.2 d.symbol (List.mem_map_of_mem hd) e.symbol (by simp)
  intro hinside
  exact absurd (Text.byteLength_lt_of_inside hinside hne) (Nat.not_lt_of_le hlen)

/-- A name that stands alone becomes its replacement, unless a later name occurs in that. -/
theorem substitute_symbol {modules : List (ModuleDoc × Text)} {mode : LinkMode}
    {front back : List Entry} {e : Entry}
    (hindex : (Index.ofModules modules).entries = front ++ e :: back)
    (hback : ∀ d ∈ back, ¬ d.symbol <:+: e.replacement mode) :
    (Index.ofModules modules).substitute mode e.symbol = e.replacement mode := by
  rw [Index.substitute_eq, hindex, substituteAll_append,
    substituteAll_eq_self (fun d hd => not_infix_of_mem_front hindex hd), substituteAll_cons]
  have hpass : e.substitute mode e.symbol = e.replacement mode := Text.replace_self _ _
  rw [hpass, substituteAll_eq_self hback]

/-- A name between two characters that no name contains is replaced as a whole, whatever
stands around it and whatever shorter or longer names the index holds. -/
theorem substitute_delimited_symbol {modules : List (ModuleDoc × Text)} {mode : LinkMode}
    {front back : List Entry} {e : Entry} {c c' : Char}
    (hindex : (Index.ofModules modules).entries = front ++ e :: back)
    (hc : ∀ d ∈ (Index.ofModules modules).entries, c ∉ d.symbol)
    (hc' : ∀ d ∈ (Index.ofModules modules).entries, c' ∉ d.symbol)
    (hback : ∀ d ∈ back, ¬ d.symbol <:+: e.replacement mode) (u v : Text) :
    (Index.ofModules modules).substitute mode (u ++ c :: (e.symbol ++ c' :: v)) =
      (Index.ofModules modules).substitute mode u ++
        c :: (e.replacement mode ++ c' :: (Index.ofModules modules).substitute mode v) := by
  have hsymbol := substitute_symbol hindex hback
  rw [Index.substitute_eq] at hsymbol
  simp only [Index.substitute_eq]
  rw [substituteAll_append_cons hc, substituteAll_append_cons hc', hsymbol]

/-- A run over one module with a class and a method, whose names contain one another. -/
def toolkitModules : List (ModuleDoc × Text) :=
  [({ name := "Toolkit".toList
      classes := [{ name := "Window".toList, methods := [{ name := "close".toList }] }] },
    "/api/toolkit".toList)]

def toolkitEntry (symbol display anchor : String) : Entry :=
  ⟨symbol.toList, display.toList, anchor.toList⟩

theorem entries_toolkitModules :
    (Index.ofModules toolkitModules).entries =
      [toolkitEntry "Toolkit.Window.close" "close" "/api/toolkit/#close"] ++
        toolkitEntry "Toolkit.Window" "Window" "/api/toolkit/#window" ::
          [toolkitEntry "Toolkit" "Toolkit" "/api/toolkit"] :=
  entries_eq_of_perm (by decide) (by decide)

theorem substitute_toolkit_window :
    let index := Index.ofModules toolkitModules
    let e := toolkitEntry "Toolkit.Window" "Window" "/api/toolkit/#window"
    (∀ d ∈ index.entries, '(' ∉ d.symbol) ∧ (∀ d ∈ index.entries, ')' ∉ d.symbol) ∧
      (∀ d ∈ [toolkitEntry "Toolkit" "Toolkit" "/api/toolkit"],
        ¬ d.symbol <:+: e.replacement .link) ∧
      index.substitute .link
          ("Toolkit.Window.close ".toList ++ '(' :: (e.symbol ++ ')' :: [])) =
        index.substitute .link "Toolkit.Window.close ".toList ++
          '(' :: (e.replacement .link ++ ')' :: index.substitute .link []) := by
  intro index e
  have hopen : ∀ d ∈ index.entries, '(' ∉ d.symbol := by
    rw [entries_toolkitModules]
    decide
  have hclose : ∀ d ∈ index.entries, ')' ∉ d.symbol := by
    rw [entries_toolkitModules]
    decide
  have hback : ∀ d ∈ [toolkitEntry "Toolkit" "Toolkit" "/api/toolkit"],
      ¬ d.symbol <:+: e.replacement .link := by
    decide
  exact ⟨hopen, hclose, hback,
    substitute_delimited_symbol entries_toolkitModules hopen hclose hback _ _⟩

end Symbol
end ApiManual
