import ApiManual.Proofs.Text.Edges
import ApiManual.Symbol.Index
import Mathlib.Data.List.Induction
import Mathlib.Data.List.Nodup
import Mathlib.Tactic.Common

/-!
# What the symbol index holds

The registry is filled by nested loops over modules, classes, methods, members and
functions.  Here the same visit is written down as one flat list of definitions, and
the finished index is shown to be that list with every repeated name left out, in
stable order with long names first.
-/

namespace ApiManual
namespace Symbol

def classDefinitions (page moduleName : Text) (c : ClassDoc) : List Entry :=
  let symbol := qualify moduleName c.name
  .onPage page symbol c.name c.name ::
    (c.methods.map (fun f => .onPage page (qualify symbol f.name) f.name f.name) ++
      if c.isEnum then
        c.fields.map fun f =>
          .onPage page (qualify symbol f.name) (qualify c.name f.name) c.name
      else [])

def moduleDefinitions (m : ModuleDoc) (page : Text) : List Entry :=
  ⟨m.name, m.name, page⟩ ::
    (m.classes.flatMap (classDefinitions page m.name) ++
      m.functions.map fun f => .onPage page (qualify m.name f.name) f.name f.name)

/-- All definitions of a run in the order of discovery. -/
def definitions (modules : List (ModuleDoc × Text)) : List Entry :=
  modules.flatMap fun (m, page) => moduleDefinitions m page

/-- The definitions that have no earlier one of the same name. -/
def firstDefinitions (es : List Entry) : List Entry :=
  (es.zipIdx.filter fun (e, i) => !(es.take i).any (·.symbol = e.symbol)).map Prod.fst

theorem firstDefinitions_concat (es : List Entry) (e : Entry) :
    firstDefinitions (es ++ [e]) =
      firstDefinitions es ++ if es.any (·.symbol = e.symbol) then [] else [e] := by
  unfold firstDefinitions
  have hold :
      es.zipIdx.filter (fun (d, i) => !((es ++ [e]).take i).any (·.symbol = d.symbol)) =
        es.zipIdx.filter (fun (d, i) => !(es.take i).any (·.symbol = d.symbol)) := by
    apply List.filter_congr
    rintro ⟨d, i⟩ hmem
    have hlt : i < es.length := by
      simpa using List.snd_lt_of_mem_zipIdx hmem
    simp only [List.take_append_of_le_length (Nat.le_of_lt hlt)]
  have hnew : (es ++ [e]).zipIdx = es.zipIdx ++ [(e, es.length)] := by
    simp [List.zipIdx_append]
  rw [hnew, List.filter_append, List.map_append, hold]
  congr 1
  by_cases hany : es.any (·.symbol = e.symbol)
  · simp [hany]
  · simp [hany]

theorem mem_of_mem_firstDefinitions {es : List Entry} {e : Entry}
    (h : e ∈ firstDefinitions es) : e ∈ es := by
  obtain ⟨⟨d, i⟩, hmem, rfl⟩ := List.mem_map.mp h
  exact List.fst_mem_of_mem_zipIdx (List.mem_filter.mp hmem).1

theorem any_firstDefinitions (es : List Entry) (symbol : Text) :
    (firstDefinitions es).any (·.symbol = symbol) = es.any (·.symbol = symbol) := by
  induction es using List.reverseRecOn with
  | nil => rfl
  | append_singleton es e ih =>
      rw [firstDefinitions_concat, List.any_append, List.any_append, ih]
      by_cases hany : es.any (·.symbol = e.symbol)
      · rw [if_pos hany]
        by_cases heq : e.symbol = symbol
        · subst heq
          simp [hany]
        · simp [heq]
      · rw [if_neg hany]

theorem nodup_firstDefinitions (es : List Entry) :
    ((firstDefinitions es).map Entry.symbol).Nodup := by
  induction es using List.reverseRecOn with
  | nil => exact List.nodup_nil
  | append_singleton es e ih =>
      rw [firstDefinitions_concat]
      by_cases hany : es.any (·.symbol = e.symbol)
      · simpa [hany] using ih
      · rw [if_neg hany, List.map_append, List.nodup_append]
        refine ⟨ih, by simp, ?_⟩
        intro a ha b hb heq
        obtain ⟨d, hd, rfl⟩ := List.mem_map.mp ha
        have hbe : b = e.symbol := by simpa using hb
        apply hany
        rw [← any_firstDefinitions]
        exact List.any_eq_true.mpr ⟨d, hd, by simp [heq, hbe]⟩

theorem find?_firstDefinitions (es : List Entry) (symbol : Text) :
    (firstDefinitions es).find? (·.symbol = symbol) = es.find? (·.symbol = symbol) := by
  induction es using List.reverseRecOn with
  | nil => rfl
  | append_singleton es e ih =>
      rw [firstDefinitions_concat, List.find?_append, List.find?_append, ih]
      by_cases hany : es.any (·.symbol = e.symbol)
      · rw [if_pos hany]
        by_cases heq : e.symbol = symbol
        · subst heq
          have hsome : (es.find? (·.symbol = e.symbol)).isSome := by
            rw [List.find?_isSome]
            simpa using hany
          obtain ⟨d, hd⟩ := Option.isSome_iff_exists.mp hsome
          simp [hd]
        · simp [heq]
      · rw [if_neg hany]

/-! ## The registration loops -/

namespace Registry

/-- The registry that has seen exactly these definitions. -/
def ofDefinitions (es : List Entry) : Registry :=
  ⟨firstDefinitions es⟩

theorem register_ofDefinitions (es : List Entry) (e : Entry) :
    (ofDefinitions es).register e = ofDefinitions (es ++ [e]) := by
  unfold register contains ofDefinitions
  rw [firstDefinitions_concat, any_firstDefinitions]
  split <;> simp

/-- A loop whose rounds each register a list of definitions registers them all. -/
theorem foldl_ofDefinitions {α : Type} (f : Registry → α → Registry)
    (defs : α → List Entry)
    (hround : ∀ es a, f (ofDefinitions es) a = ofDefinitions (es ++ defs a))
    (es : List Entry) (as : List α) :
    as.foldl f (ofDefinitions es) = ofDefinitions (es ++ as.flatMap defs) := by
  induction as generalizing es with
  | nil => simp
  | cons a as ih =>
      rw [List.foldl_cons, hround, ih, List.flatMap_cons, List.append_assoc]

theorem foldl_register_ofDefinitions {α : Type} (f : Registry → α → Registry)
    (entry : α → Entry) (hround : ∀ r a, f r a = r.register (entry a))
    (es : List Entry) (as : List α) :
    as.foldl f (ofDefinitions es) = ofDefinitions (es ++ as.map entry) := by
  have h := foldl_ofDefinitions f (fun a => [entry a])
    (fun es a => by rw [hround, register_ofDefinitions]) es as
  rwa [← List.map_eq_flatMap] at h

theorem addClass_ofDefinitions (page moduleName : Text) (es : List Entry) (c : ClassDoc) :
    addClass page moduleName (ofDefinitions es) c =
      ofDefinitions (es ++ classDefinitions page moduleName c) := by
  unfold addClass classDefinitions
  simp only [register_ofDefinitions]
  rw [foldl_register_ofDefinitions (addMethod page (qualify moduleName c.name)) _
    (fun _ _ => rfl)]
  by_cases henum : c.isEnum
  · rw [if_pos henum, if_pos henum, foldl_register_ofDefinitions
      (addMember page (qualify moduleName c.name) c.name) _ (fun _ _ => rfl)]
    simp
  · rw [if_neg henum, if_neg henum]
    simp

theorem addModule_ofDefinitions (es : List Entry) (m : ModuleDoc) (page : Text) :
    (ofDefinitions es).addModule m page =
      ofDefinitions (es ++ moduleDefinitions m page) := by
  unfold addModule moduleDefinitions
  simp only [register_ofDefinitions]
  rw [foldl_ofDefinitions (addClass page m.name) _ (addClass_ofDefinitions page m.name),
    foldl_register_ofDefinitions (addFunction page m.name) _ (fun _ _ => rfl)]
  simp

theorem foldl_addModule (modules : List (ModuleDoc × Text)) :
    modules.foldl (fun r (m, page) => r.addModule m page) ({} : Registry) =
      ofDefinitions (definitions modules) := by
  have h := foldl_ofDefinitions (fun r (p : ModuleDoc × Text) => r.addModule p.1 p.2)
    (fun p => moduleDefinitions p.1 p.2)
    (fun es p => addModule_ofDefinitions es p.1 p.2) [] modules
  rw [List.nil_append] at h
  exact h

end Registry

/-! ## The order of the index -/

/-- A list is put in order of falling length of the names, and names of equal length
keep the order they had. -/
structure LongestFirst (es sorted : List Entry) : Prop where
  perm : sorted.Perm es
  falling :
    sorted.Pairwise fun a b => Text.byteLength b.symbol ≤ Text.byteLength a.symbol
  stable : ∀ n,
    sorted.filter (Text.byteLength ·.symbol = n) =
      es.filter (Text.byteLength ·.symbol = n)

theorem pairwise_before_iff (es : List Entry) :
    (es.Pairwise fun a b => Entry.before a b) ↔
      es.Pairwise fun a b => Text.byteLength b.symbol ≤ Text.byteLength a.symbol := by
  simp [Entry.before]

theorem longestFirst_mergeSort (es : List Entry) :
    LongestFirst es (es.mergeSort Entry.before) := by
  have htrans : ∀ a b c : Entry, a.before b → b.before c → a.before c := by
    intro a b c hab hbc
    simp only [Entry.before, decide_eq_true_eq] at *
    exact Nat.le_trans hbc hab
  have htotal : ∀ a b : Entry, a.before b || b.before a := by
    intro a b
    simp only [Entry.before, Bool.or_eq_true, decide_eq_true_eq]
    exact Nat.le_total _ _
  have hperm := List.mergeSort_perm es Entry.before
  constructor
  · exact hperm
  · rw [← pairwise_before_iff]
    exact List.pairwise_mergeSort htrans htotal es
  · intro n
    -- Names of one length are in order as they stand, so the sort keeps them in place.
    have hsame : (es.filter (Text.byteLength ·.symbol = n)).Pairwise
        fun a b => Entry.before a b := by
      apply List.pairwise_of_forall_mem_list
      intro a ha b hb
      have hna : Text.byteLength a.symbol = n := by simpa using (List.mem_filter.mp ha).2
      have hnb : Text.byteLength b.symbol = n := by simpa using (List.mem_filter.mp hb).2
      simp [Entry.before, hna, hnb]
    have hsub := List.sublist_mergeSort htrans htotal hsame List.filter_sublist
    have hkeep := hsub.filter (Text.byteLength ·.symbol = n)
    simp only [List.filter_filter, Bool.and_self] at hkeep
    exact (hkeep.eq_of_length (hperm.filter _).length_eq.symm).symm

theorem longestFirst_ofModules (modules : List (ModuleDoc × Text)) :
    LongestFirst (firstDefinitions (definitions modules))
      (Index.ofModules modules).entries := by
  unfold Index.ofModules
  rw [Registry.foldl_addModule]
  exact longestFirst_mergeSort _

/-- Names of different lengths can stand in one order only. -/
theorem entries_eq_of_perm {modules : List (ModuleDoc × Text)} {es : List Entry}
    (hperm : (firstDefinitions (definitions modules)).Perm es)
    (hfalling : es.Pairwise fun a b => Text.byteLength b.symbol < Text.byteLength a.symbol) :
    (Index.ofModules modules).entries = es := by
  have hsorted := longestFirst_ofModules modules
  have hsame : (Index.ofModules modules).entries.Perm es := hsorted.perm.trans hperm
  have hlengths : (es.map fun e => Text.byteLength e.symbol).Nodup :=
    List.pairwise_map.mpr (hfalling.imp fun hlt => (Nat.ne_of_lt hlt).symm)
  apply List.Perm.eq_of_pairwise _ hsorted.falling (hfalling.imp Nat.le_of_lt) hsame
  intro a b ha hb hab hba
  exact List.inj_on_of_nodup_map hlengths (hsame.mem_iff.mp ha) hb (Nat.le_antisymm hba hab)

theorem ofModules_before {modules : List (ModuleDoc × Text)} {front back : List Entry}
    {e : Entry} (hindex : (Index.ofModules modules).entries = front ++ e :: back)
    {d : Entry} (hd : d ∈ front) :
    Text.byteLength e.symbol ≤ Text.byteLength d.symbol := by
  have hfalling := (longestFirst_ofModules modules).falling
  rw [hindex, List.pairwise_append] at hfalling
  exact hfalling.2.2 d hd e List.mem_cons_self

theorem nodup_ofModules (modules : List (ModuleDoc × Text)) :
    ((Index.ofModules modules).entries.map Entry.symbol).Nodup := by
  have hperm := (longestFirst_ofModules modules).perm.map Entry.symbol
  exact hperm.nodup_iff.mpr (nodup_firstDefinitions _)

theorem find?_eq_some_of_mem {es : List Entry}
    (hnodup : (es.map Entry.symbol).Nodup) {e : Entry} (he : e ∈ es) :
    es.find? (·.symbol = e.symbol) = some e := by
  induction es with
  | nil => simp at he
  | cons d es ih =>
      rw [List.map_cons, List.nodup_cons] at hnodup
      rcases List.mem_cons.mp he with rfl | hmem
      · simp
      · have hne : d.symbol ≠ e.symbol := by
          intro heq
          exact hnodup.1 (heq ▸ List.mem_map_of_mem hmem)
        rw [List.find?_cons_of_neg (by simpa using hne)]
        exact ih hnodup.2 hmem

theorem find?_definitions_of_mem {modules : List (ModuleDoc × Text)} {e : Entry}
    (he : e ∈ (Index.ofModules modules).entries) :
    (definitions modules).find? (·.symbol = e.symbol) = some e := by
  rw [← find?_firstDefinitions]
  exact find?_eq_some_of_mem (nodup_firstDefinitions _)
    ((longestFirst_ofModules modules).perm.mem_iff.mp he)

theorem exists_entry_of_definition {modules : List (ModuleDoc × Text)} {e : Entry}
    (he : e ∈ definitions modules) :
    ∃ d ∈ (Index.ofModules modules).entries, d.symbol = e.symbol := by
  have hany : (firstDefinitions (definitions modules)).any (·.symbol = e.symbol) := by
    rw [any_firstDefinitions]
    exact List.any_eq_true.mpr ⟨e, he, by simp⟩
  obtain ⟨d, hd, hsymbol⟩ := List.any_eq_true.mp hany
  exact ⟨d, (longestFirst_ofModules modules).perm.mem_iff.mpr hd, by simpa using hsymbol⟩

end Symbol
end ApiManual
