import Mathlib.Data.List.Forall2
import Mathlib.Tactic.Common

/-!
# Results

Taking apart and putting together computations that can fail.
-/

namespace ApiManual

theorem exists_of_bind_ok {ε α β : Type} {x : Except ε α} {f : α → Except ε β} {b : β}
    (h : x >>= f = .ok b) : ∃ a, x = .ok a ∧ f a = .ok b := by
  cases x with
  | error e => cases h
  | ok a => exact ⟨a, rfl, h⟩

theorem exists_of_map_ok {ε α β : Type} {x : Except ε α} {f : α → β} {b : β}
    (h : x.map f = .ok b) : ∃ a, x = .ok a ∧ f a = b := by
  cases x with
  | error e => cases h
  | ok a => exact ⟨a, rfl, Except.ok.inj h⟩

theorem of_map_error {ε α β : Type} {x : Except ε α} {f : α → β} {e : ε}
    (h : x.map f = .error e) : x = .error e := by
  cases x with
  | error e' => exact congrArg _ (Except.error.inj h)
  | ok a => cases h

theorem exists_of_mapError_error {ε ε' α : Type} {f : ε → ε'} {x : Except ε α} {e : ε'}
    (h : x.mapError f = .error e) : ∃ e', x = .error e' ∧ f e' = e := by
  cases x with
  | error e' => exact ⟨e', rfl, Except.error.inj h⟩
  | ok a => cases h

theorem of_mapError_ok {ε ε' α : Type} {f : ε → ε'} {x : Except ε α} {a : α}
    (h : x.mapError f = .ok a) : x = .ok a := by
  cases x with
  | error e => cases h
  | ok a' => exact congrArg _ (Except.ok.inj h)

theorem error_cases_of_bind {ε α β : Type} {x : Except ε α} {f : α → Except ε β} {e : ε}
    (h : x >>= f = .error e) : x = .error e ∨ ∃ a, x = .ok a ∧ f a = .error e := by
  cases x with
  | error e' => exact .inl (congrArg _ (Except.error.inj h))
  | ok a => exact .inr ⟨a, rfl, h⟩

@[simp] theorem ok_bind {ε α β : Type} (a : α) (f : α → Except ε β) :
    (Except.ok a >>= f) = f a := rfl

theorem toOption_eq_some_iff {ε α : Type} {x : Except ε α} {a : α} :
    x.toOption = some a ↔ x = .ok a := by
  cases x <;> simp [Except.toOption]

/-- Computations that differ in their failures only fail together or give one result. -/
theorem toOption_eq_iff {ε α : Type} {x y : Except ε α} :
    x.toOption = y.toOption ↔
      (∃ e₁ e₂, x = .error e₁ ∧ y = .error e₂) ∨ ∃ a, x = .ok a ∧ y = .ok a := by
  cases x <;> cases y <;> simp [Except.toOption, eq_comm]

theorem mapM_eq_ok_iff {ε α β : Type} {f : α → Except ε β} {as : List α} {bs : List β} :
    as.mapM f = .ok bs ↔ List.Forall₂ (fun a b => f a = .ok b) as bs := by
  induction as generalizing bs with
  | nil =>
      rw [List.forall₂_nil_left_iff]
      exact ⟨fun h => (Except.ok.inj h).symm, fun h => h ▸ rfl⟩
  | cons a as ih =>
      rw [List.mapM_cons, List.forall₂_cons_left_iff]
      constructor
      · intro h
        obtain ⟨b, ha, h⟩ := exists_of_bind_ok h
        obtain ⟨bs', has, h⟩ := exists_of_bind_ok h
        cases h
        exact ⟨b, bs', ha, ih.mp has, rfl⟩
      · rintro ⟨b, bs', ha, has, rfl⟩
        rw [ha, ok_bind, ih.mpr has]
        rfl

theorem exists_forall₂_iff {α β : Type} {r : α → β → Prop} {as : List α} :
    (∃ bs, List.Forall₂ r as bs) ↔ ∀ a ∈ as, ∃ b, r a b := by
  induction as with
  | nil => simp
  | cons a as ih =>
      rw [List.forall_mem_cons, ← ih]
      constructor
      · rintro ⟨bs, hall⟩
        obtain ⟨b, bs', ha, has, -⟩ := List.forall₂_cons_left_iff.mp hall
        exact ⟨⟨b, ha⟩, bs', has⟩
      · rintro ⟨⟨b, ha⟩, bs, has⟩
        exact ⟨b :: bs, .cons ha has⟩

theorem exists_of_forall₂ {α β : Type} {r : α → β → Prop} {as : List α} {bs : List β}
    (h : List.Forall₂ r as bs) {b : β} (hb : b ∈ bs) : ∃ a ∈ as, r a b := by
  induction h with
  | nil => cases hb
  | cons ha _ ih =>
      rcases List.mem_cons.mp hb with rfl | hmem
      · exact ⟨_, List.mem_cons_self, ha⟩
      · obtain ⟨a, hin, hrel⟩ := ih hmem
        exact ⟨a, List.mem_cons_of_mem _ hin, hrel⟩

theorem forall₂_concat {α β : Type} {R : α → β → Prop} {as : List α} {bs : List β}
    (h : List.Forall₂ R as bs) {a : α} {b : β} (hab : R a b) :
    List.Forall₂ R (as ++ [a]) (bs ++ [b]) :=
  List.rel_append h (.cons hab .nil)

theorem forall₂_modify {α β : Type} {R : α → β → Prop} {f : β → β}
    (hf : ∀ a b, R a b → R a (f b)) {as : List α} {bs : List β} (h : List.Forall₂ R as bs)
    (number : ℕ) : List.Forall₂ R as (bs.modify number f) := by
  induction h generalizing number with
  | nil => simp
  | cons hab hrest ih =>
      cases number with
      | zero => exact .cons (hf _ _ hab) hrest
      | succ number => exact .cons hab (ih number)

/-- Pairwise relations carry over between lists that are related item by item. -/
theorem pairwise_of_forall₂ {α β : Type} {r : α → β → Prop} {p : α → α → Prop}
    {q : β → β → Prop} (hpq : ∀ a b c d, r a c → r b d → p a b → q c d) {as : List α}
    {bs : List β} (h : List.Forall₂ r as bs) (has : as.Pairwise p) : bs.Pairwise q := by
  induction h with
  | nil => exact List.Pairwise.nil
  | @cons a c as bs hac hrest ih =>
      obtain ⟨hhead, htail⟩ := List.pairwise_cons.mp has
      refine List.pairwise_cons.mpr ⟨?_, ih htail⟩
      intro d hd
      obtain ⟨b, hb, hbd⟩ := exists_of_forall₂ hrest hd
      exact hpq a b c d hac hbd (hhead b hb)

/-- A reader that gives back what was written gives back every list of it. -/
theorem mapM_map_eq {ε α β : Type} {f : β → Except ε α} {g : α → β} {l : List α}
    (h : ∀ a ∈ l, f (g a) = .ok a) : (l.map g).mapM f = .ok l := by
  induction l with
  | nil => rfl
  | cons a l ih =>
      rw [List.forall_mem_cons] at h
      rw [List.map_cons, List.mapM_cons, h.1, ok_bind, ih h.2, ok_bind]
      rfl

/-- The first failure is the failure of the whole. -/
theorem mapM_append_cons_error {ε α β : Type} {f : α → Except ε β} {front back : List α} {a : α}
    {e : ε} (hfront : ∀ b ∈ front, ∃ c, f b = .ok c) (ha : f a = .error e) :
    (front ++ a :: back).mapM f = .error e := by
  induction front with
  | nil =>
      rw [List.nil_append, List.mapM_cons, ha]
      rfl
  | cons b front ih =>
      rw [List.forall_mem_cons] at hfront
      obtain ⟨c, hb⟩ := hfront.1
      rw [List.cons_append, List.mapM_cons, hb, ok_bind, ih hfront.2]
      rfl

theorem exists_of_mapM_error {ε α β : Type} {f : α → Except ε β} {as : List α} {e : ε}
    (h : as.mapM f = .error e) : ∃ a ∈ as, f a = .error e := by
  induction as with
  | nil => cases h
  | cons a as ih =>
      rw [List.mapM_cons] at h
      rcases error_cases_of_bind h with ha | ⟨b, -, h⟩
      · exact ⟨a, List.mem_cons_self, ha⟩
      · rcases error_cases_of_bind h with has | ⟨bs, -, h⟩
        · obtain ⟨a', hmem, ha'⟩ := ih has
          exact ⟨a', List.mem_cons_of_mem _ hmem, ha'⟩
        · cases h

theorem exists_of_foldlM_error {ε α β : Type} {f : β → α → Except ε β} {as : List α} {b : β} {e : ε}
    (h : as.foldlM f b = .error e) : ∃ a ∈ as, ∃ b', f b' a = .error e := by
  induction as generalizing b with
  | nil => cases h
  | cons a as ih =>
      rw [List.foldlM_cons] at h
      rcases error_cases_of_bind h with ha | ⟨b', -, hrest⟩
      · exact ⟨a, List.mem_cons_self, b, ha⟩
      · obtain ⟨a', hmem, ha'⟩ := ih hrest
        exact ⟨a', List.mem_cons_of_mem _ hmem, ha'⟩

/-- A run that succeeds succeeds at every step. -/
theorem exists_of_mem_foldlM {ε α β : Type} {f : β → α → Except ε β} {as : List α} {b b' : β}
    (h : as.foldlM f b = .ok b') {a : α} (ha : a ∈ as) : ∃ c c', f c a = .ok c' := by
  induction as generalizing b with
  | nil => cases ha
  | cons a' as ih =>
      rw [List.foldlM_cons] at h
      obtain ⟨c, hstep, hrest⟩ := exists_of_bind_ok h
      cases ha with
      | head => exact ⟨b, c, hstep⟩
      | tail _ hmem => exact ih hrest hmem

/-- What every step of a run keeps holds at its end. -/
theorem keeps_of_foldlM {ε α β : Type} {f : β → α → Except ε β} {P : β → Prop}
    (hstep : ∀ {b a b'}, P b → f b a = .ok b' → P b') {as : List α} {b b' : β} (hb : P b)
    (h : as.foldlM f b = .ok b') : P b' := by
  induction as generalizing b with
  | nil =>
      cases h
      exact hb
  | cons a as ih =>
      rw [List.foldlM_cons] at h
      obtain ⟨c, hc, hrest⟩ := exists_of_bind_ok h
      exact ih (hstep hb hc) hrest

theorem exists_of_mem_mapM_ok {ε α β : Type} {f : α → Except ε β} {as : List α} {bs : List β}
    (h : as.mapM f = .ok bs) {a : α} (ha : a ∈ as) : ∃ b, f a = .ok b :=
  exists_forall₂_iff.mp ⟨bs, mapM_eq_ok_iff.mp h⟩ a ha

/-- Two readers that differ in their failures only agree on whole lists. -/
theorem toOption_mapM {ε α β γ : Type} {f : α → Except ε β} {g : γ → Option β} {as : List α}
    {cs : List γ} (h : List.Forall₂ (fun a c => (f a).toOption = g c) as cs) :
    (as.mapM f).toOption = cs.mapM g := by
  induction h with
  | nil => rfl
  | @cons a c as cs ha _ ih =>
      rw [List.mapM_cons, List.mapM_cons, ← ha, ← ih]
      cases f a with
      | error e => rfl
      | ok b => cases as.mapM f <;> rfl

theorem mapM_eq_some_iff {α β : Type} {f : α → Option β} {as : List α} {bs : List β} :
    as.mapM f = some bs ↔ List.Forall₂ (fun a b => f a = some b) as bs := by
  induction as generalizing bs with
  | nil =>
      rw [List.forall₂_nil_left_iff]
      exact ⟨fun h => (Option.some.inj h).symm, fun h => h ▸ rfl⟩
  | cons a as ih =>
      rw [List.mapM_cons, List.forall₂_cons_left_iff]
      constructor
      · intro h
        obtain ⟨b, ha, h⟩ := Option.bind_eq_some_iff.mp h
        obtain ⟨bs', has, h⟩ := Option.bind_eq_some_iff.mp h
        cases h
        exact ⟨b, bs', ha, ih.mp has, rfl⟩
      · rintro ⟨b, bs', ha, has, rfl⟩
        rw [ha, Option.bind_eq_bind, Option.bind_some, ih.mpr has]
        rfl

theorem mapM_id_eq_some_iff {α : Type} {as : List (Option α)} {bs : List α} :
    as.mapM id = some bs ↔ as = bs.map some := by
  rw [mapM_eq_some_iff, ← List.forall₂_eq_eq_eq, List.forall₂_map_right_iff]
  rfl

theorem exists_of_mem_mapM {α β : Type} {f : α → Option β} {as : List α} {bs : List β}
    (h : as.mapM f = some bs) {b : β} (hb : b ∈ bs) : ∃ a ∈ as, f a = some b :=
  exists_of_forall₂ (mapM_eq_some_iff.mp h) hb

/-- What a search over several places finds is found at one of them. -/
theorem exists_of_mem_flatten {α β : Type} {f : α → Option (List β)} {as : List α}
    {found : List (List β)} (h : as.mapM f = some found) {b : β} (hb : b ∈ found.flatten) :
    ∃ a ∈ as, ∃ bs, f a = some bs ∧ b ∈ bs := by
  obtain ⟨bs, hbs, hmem⟩ := List.mem_flatten.mp hb
  obtain ⟨a, ha, hfound⟩ := exists_of_mem_mapM h hbs
  exact ⟨a, ha, bs, hfound, hmem⟩

/-- A search that finds one thing at each place finds them all. -/
theorem bind_mapM_singleton {α β : Type} (f : α → β) (as : List α) :
    ((as.mapM fun a => some [f a]).bind fun found => some found.flatten) = some (as.map f) := by
  have hall : (as.mapM fun a => some [f a]) = some (as.map fun a => [f a]) := List.mapM_pure
  rw [hall, Option.bind_some, ← List.flatMap_def, ← List.map_eq_flatMap]

end ApiManual
