import ApiManual.Proofs.Symbol.Registration

/-!
# Where a name comes from

Each module of a run registers its names on its own.  The index of the run gives a name
the entry that the first module to register it has for it, whatever later modules say.
-/

namespace ApiManual
namespace Symbol

/-- The entry of a name in the first module that registers it. -/
def origin? (modules : List (ModuleDoc × Text)) (symbol : Text) : Option Entry :=
  modules.findSome? fun (m, page) =>
    (({} : Registry).addModule m page).entries.find? (·.symbol = symbol)

theorem entries_addModule (m : ModuleDoc) (page : Text) :
    (({} : Registry).addModule m page).entries = firstDefinitions (moduleDefinitions m page) := by
  have hadd := Registry.addModule_ofDefinitions [] m page
  rw [List.nil_append] at hadd
  exact congrArg Registry.entries hadd

theorem find?_addModule (m : ModuleDoc) (page symbol : Text) :
    (({} : Registry).addModule m page).entries.find? (·.symbol = symbol) =
      (moduleDefinitions m page).find? (·.symbol = symbol) := by
  rw [entries_addModule, find?_firstDefinitions]

/-- A module registers its names on its own page. -/
theorem page_isPrefix_of_mem_moduleDefinitions {m : ModuleDoc} {page : Text} {e : Entry}
    (h : e ∈ moduleDefinitions m page) : page <+: e.anchor := by
  have honPage : ∀ symbol display place, page <+: (Entry.onPage page symbol display place).anchor :=
    fun _ _ place => ⟨"/#".toList ++ fragment place, by simp [Entry.onPage]⟩
  unfold moduleDefinitions at h
  rcases List.mem_cons.mp h with rfl | h
  · exact List.prefix_rfl
  rcases List.mem_append.mp h with h | h
  · obtain ⟨c, -, h⟩ := List.mem_flatMap.mp h
    unfold classDefinitions at h
    rcases List.mem_cons.mp h with rfl | h
    · exact honPage _ _ _
    rcases List.mem_append.mp h with h | h
    · obtain ⟨f, -, rfl⟩ := List.mem_map.mp h
      exact honPage _ _ _
    · rw [List.mem_ite_nil_right] at h
      obtain ⟨f, -, rfl⟩ := List.mem_map.mp h.2
      exact honPage _ _ _
  · obtain ⟨f, -, rfl⟩ := List.mem_map.mp h
    exact honPage _ _ _

theorem origin?_eq_find? (modules : List (ModuleDoc × Text)) (symbol : Text) :
    origin? modules symbol = (definitions modules).find? (·.symbol = symbol) := by
  simp only [origin?, find?_addModule, definitions, List.find?_flatMap]

theorem mem_ofModules_iff {modules : List (ModuleDoc × Text)} {e : Entry} :
    e ∈ (Index.ofModules modules).entries ↔ origin? modules e.symbol = some e := by
  rw [origin?_eq_find?]
  constructor
  · exact find?_definitions_of_mem
  · intro hfind
    obtain ⟨d, hd, hsymbol⟩ := exists_entry_of_definition (List.mem_of_find?_eq_some hfind)
    have hfirst := find?_definitions_of_mem hd
    rw [hsymbol, hfind] at hfirst
    rwa [Option.some.inj hfirst]

end Symbol
end ApiManual
