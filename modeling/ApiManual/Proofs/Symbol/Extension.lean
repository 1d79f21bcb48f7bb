import ApiManual.Proofs.Symbol.Registration

/-!
# Adding modules to a run

The definitions of further modules come behind those that are there, and the first
definition of a name wins.  So the registry only grows at its end, and a stable sort puts
the old entries in the order they had among themselves.
-/

namespace ApiManual
namespace Symbol

/-! ## Stable order -/

theorem mem_of_filter_eq {a b : List Entry}
    (h : ∀ n, a.filter (Text.byteLength ·.symbol = n) = b.filter (Text.byteLength ·.symbol = n))
    {e : Entry} (he : e ∈ a) : e ∈ b := by
  have hfilter : e ∈ a.filter (Text.byteLength ·.symbol = Text.byteLength e.symbol) := by
    simpa using he
  rw [h] at hfilter
  exact (List.mem_filter.mp hfilter).1

/-- Two falling lists that agree on the names of each length are the same. -/
theorem eq_of_falling {a b : List Entry}
    (ha : a.Pairwise fun d e => Text.byteLength e.symbol ≤ Text.byteLength d.symbol)
    (hb : b.Pairwise fun d e => Text.byteLength e.symbol ≤ Text.byteLength d.symbol)
    (h : ∀ n, a.filter (Text.byteLength ·.symbol = n) = b.filter (Text.byteLength ·.symbol = n)) :
    a = b := by
  induction a generalizing b with
  | nil =>
      cases b with
      | nil => rfl
      | cons y b => cases mem_of_filter_eq (fun n => (h n).symm) (List.mem_cons_self)
  | cons x a ih =>
      have hx : x ∈ b := mem_of_filter_eq h List.mem_cons_self
      cases b with
      | nil => cases hx
      | cons y b =>
          have hy : y ∈ x :: a := mem_of_filter_eq (fun n => (h n).symm) List.mem_cons_self
          rw [List.pairwise_cons] at ha hb
          have hlength : Text.byteLength x.symbol = Text.byteLength y.symbol := by
            rcases List.mem_cons.mp hx with rfl | hxb
            · rfl
            rcases List.mem_cons.mp hy with rfl | hya
            · rfl
            exact Nat.le_antisymm (hb.1 x hxb) (ha.1 y hya)
          have hfirst := h (Text.byteLength x.symbol)
          rw [List.filter_cons_of_pos (by simp),
            List.filter_cons_of_pos (by simp [hlength])] at hfirst
          obtain rfl : x = y := (List.cons.inj hfirst).1
          congr 1
          apply ih ha.2 hb.2
          intro n
          have hrest := h n
          rw [List.filter_cons, List.filter_cons] at hrest
          split at hrest
          · exact (List.cons.inj hrest).2
          · exact hrest

namespace LongestFirst

variable {es sorted : List Entry}

theorem unique {sorted' : List Entry} (h : LongestFirst es sorted) (h' : LongestFirst es sorted') :
    sorted = sorted' :=
  eq_of_falling h.falling h'.falling fun n => (h.stable n).trans (h'.stable n).symm

theorem filter (h : LongestFirst es sorted) (p : Entry → Bool) :
    LongestFirst (es.filter p) (sorted.filter p) where
  perm := h.perm.filter p
  falling := h.falling.filter p
  stable n := by
    rw [List.filter_comm, h.stable, List.filter_comm]

/-- A part of the entries stands in the sorted list as it would if it were alone. -/
theorem sublist {part partSorted added : List Entry} (hpart : LongestFirst part partSorted)
    (h : LongestFirst (part ++ added) sorted) (hnew : ∀ e ∈ added, e ∉ part) :
    partSorted.Sublist sorted := by
  have hkeep : (part ++ added).filter (fun e => decide (e ∈ part)) = part := by
    have hnone : added.filter (fun e => decide (e ∈ part)) = [] := by
      rw [List.filter_eq_nil_iff]
      simpa using hnew
    have hall : part.filter (fun e => decide (e ∈ part)) = part := by
      rw [List.filter_eq_self]
      simp
    rw [List.filter_append, hall, hnone, List.append_nil]
  have hfilter := h.filter fun e => decide (e ∈ part)
  rw [hkeep] at hfilter
  rw [hpart.unique hfilter]
  exact List.filter_sublist

end LongestFirst

/-! ## Further modules -/

theorem exists_firstDefinitions_append (es more : List Entry) :
    ∃ added, firstDefinitions (es ++ more) = firstDefinitions es ++ added := by
  induction more using List.reverseRecOn with
  | nil => exact ⟨[], by simp⟩
  | append_singleton more e ih =>
      obtain ⟨added, hadded⟩ := ih
      rw [← List.append_assoc, firstDefinitions_concat, hadded, List.append_assoc]
      exact ⟨_, rfl⟩

/-- Further modules leave all entries of an index as they are and in their order, and the
entries they bring have names that the index did not have. -/
theorem sublist_entries_append (modules more : List (ModuleDoc × Text)) :
    let before := (Index.ofModules modules).entries
    let after := (Index.ofModules (modules ++ more)).entries
    before.Sublist after ∧
      ∃ added, after.Perm (before ++ added) ∧
        ∀ e ∈ added, ∀ d ∈ before, d.symbol ≠ e.symbol := by
  intro before after
  have hbefore := longestFirst_ofModules modules
  have hafter := longestFirst_ofModules (modules ++ more)
  have happend : definitions (modules ++ more) = definitions modules ++ definitions more := by
    rw [definitions, List.flatMap_append, definitions, definitions]
  obtain ⟨added, hadded⟩ :=
    exists_firstDefinitions_append (definitions modules) (definitions more)
  have hnodup := nodup_firstDefinitions (definitions modules ++ definitions more)
  rw [hadded, List.map_append, List.nodup_append] at hnodup
  rw [happend, hadded] at hafter
  have hnew : ∀ e ∈ added, ∀ d ∈ firstDefinitions (definitions modules), d.symbol ≠ e.symbol :=
    fun e he d hd => hnodup.2.2 _ (List.mem_map_of_mem hd) _ (List.mem_map_of_mem he)
  refine ⟨hbefore.sublist hafter fun e he hmem => hnew e he e hmem rfl, added, ?_, ?_⟩
  · exact hafter.perm.trans (hbefore.perm.symm.append_right added)
  · exact fun e he d hd => hnew e he d (hbefore.perm.mem_iff.mp hd)

end Symbol
end ApiManual
