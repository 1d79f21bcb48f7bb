import ApiManual.Proofs.Symbol.Priority
import ApiManual.Proofs.Text.Edges

/-!
# Delimiters in linked text

A character that no name of the index contains is a delimiter: links are put in on its two
sides independently, even where links bring in further copies of it.  A name between two
delimiters, or between a delimiter and an end of the text, becomes its link.
-/

namespace ApiManual
namespace Symbol

theorem substituteAll_join (mode : LinkMode) {es : List Entry} {c : Char}
    (hc : ∀ e ∈ es, c ∉ e.symbol) {parts : List Text} (hparts : parts ≠ []) :
    substituteAll mode es (Text.join [c] parts) =
      Text.join [c] (parts.map (substituteAll mode es)) := by
  induction parts with
  | nil => exact absurd rfl hparts
  | cons part parts ih =>
      cases parts with
      | nil => rw [Text.join_singleton, List.map_cons, List.map_nil, Text.join_singleton]
      | cons next parts =>
          have hrest := ih (List.cons_ne_nil _ _)
          rw [List.map_cons] at hrest
          rw [Text.join_cons_cons, List.singleton_append, substituteAll_append_cons hc, hrest,
            List.map_cons, List.map_cons, Text.join_cons_cons, List.singleton_append]

/-- What stands on one side of a delimiter is rewritten as if the other side were not
there.  So a text is rewritten piece by piece between its delimiters. -/
theorem substitute_append_cons (index : Index) (mode : LinkMode) {c : Char}
    (hc : ∀ e ∈ index.entries, c ∉ e.symbol) :
    (∀ a b : Text, index.substitute mode (a ++ c :: b) =
        index.substitute mode a ++ c :: index.substitute mode b) ∧
      ∀ text : Text, index.substitute mode text =
        Text.join [c] ((text.splitOn c).map (index.substitute mode)) := by
  refine ⟨fun a b => substituteAll_append_cons hc a b, ?_⟩
  intro text
  have hpieces := substituteAll_join mode hc (List.splitOn_ne_nil c text)
  rw [Text.join_splitOn] at hpieces
  exact hpieces

/-- An index whose links bring in blanks and whose second name occurs in the first link. -/
def spacedIndex : Index where
  entries :=
    [⟨"core.Widget".toList, "a Widget".toList, "/api/core widget".toList⟩,
      ⟨"Widget".toList, "Widget".toList, "/api/widget".toList⟩]

theorem substitute_spacedIndex :
    (∀ e ∈ spacedIndex.entries, ' ' ∉ e.symbol) ∧
      spacedIndex.substitute .link ("A core.Widget".toList ++ ' ' :: "or Widgets".toList) =
        spacedIndex.substitute .link "A core.Widget".toList ++
          ' ' :: spacedIndex.substitute .link "or Widgets".toList := by
  have hblank : ∀ e ∈ spacedIndex.entries, ' ' ∉ e.symbol := by decide
  exact ⟨hblank, (substitute_append_cons spacedIndex .link hblank).1 _ _⟩

/-! ## A name at a delimiter or at an end -/

/-- The text ends with a delimiter, if it does not end where it begins. -/
def Index.Closes (index : Index) (text : Text) : Prop :=
  ∀ c ∈ text.getLast?, ∀ e ∈ index.entries, c ∉ e.symbol

/-- The text begins with a delimiter, if it is not empty. -/
def Index.Opens (index : Index) (text : Text) : Prop :=
  ∀ c ∈ text.head?, ∀ e ∈ index.entries, c ∉ e.symbol

theorem exists_substitute_append_of_opens {index : Index} {v : Text}
    (hv : index.Opens v) (mode : LinkMode) (s : Text) :
    ∃ tail, index.substitute mode (s ++ v) = index.substitute mode s ++ tail := by
  cases v with
  | nil => exact ⟨[], by simp⟩
  | cons c v => exact ⟨_, substituteAll_append_cons (hv c rfl) s v⟩

theorem exists_substitute_append_of_closes {index : Index} {u : Text}
    (hu : index.Closes u) (mode : LinkMode) (s : Text) :
    ∃ lead, index.substitute mode (u ++ s) = lead ++ index.substitute mode s := by
  rcases List.eq_nil_or_concat' u with rfl | ⟨u, c, rfl⟩
  · exact ⟨[], rfl⟩
  · have hc : ∀ e ∈ index.entries, c ∉ e.symbol := hu c (by simp)
    refine ⟨index.substitute mode u ++ [c], ?_⟩
    rw [List.append_assoc, List.append_assoc]
    exact substituteAll_append_cons hc u s

/-- A name that nothing but delimiters touches is replaced, unless a later name occurs in
its replacement. -/
theorem replacement_infix_substitute {modules : List (ModuleDoc × Text)} {mode : LinkMode}
    {front back : List Entry} {e : Entry}
    (hindex : (Index.ofModules modules).entries = front ++ e :: back)
    (hback : ∀ d ∈ back, ¬ d.symbol <:+: e.replacement mode) {u v : Text}
    (hu : (Index.ofModules modules).Closes u) (hv : (Index.ofModules modules).Opens v) :
    e.replacement mode <:+:
      (Index.ofModules modules).substitute mode (u ++ (e.symbol ++ v)) := by
  obtain ⟨lead, hlead⟩ := exists_substitute_append_of_closes hu mode (e.symbol ++ v)
  obtain ⟨tail, htail⟩ := exists_substitute_append_of_opens hv mode e.symbol
  rw [hlead, htail, substitute_symbol hindex hback]
  exact ⟨lead, tail, by rw [List.append_assoc]⟩

end Symbol
end ApiManual
