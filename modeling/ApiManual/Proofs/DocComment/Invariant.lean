import ApiManual.Proofs.DocComment.Attribution

/-!
# Invariant of a reading

What holds behind every line that has been read.  A usage section is open only in a block
that has one, a name stands for a class that is there, a module with a name has been
described, and the tags of the open block bear the numbers of its lines in their order.
-/

namespace ApiManual
namespace DocComment

/-! ## The open block -/

/-- The tags stand below each other, from the first line of the block on and in front of the
line `next`. -/
structure DocBlock.Numbered (b : DocBlock) (next : ℕ) : Prop where
  firstLine : b.firstLine ≤ next
  ascending : b.tags.Pairwise fun t t' => t.line < t'.line
  within : ∀ t ∈ b.tags, b.firstLine ≤ t.line ∧ t.line < next

namespace DocBlock.Numbered

variable {b : DocBlock} {n : ℕ}

theorem first (n : ℕ) : ({ firstLine := n } : DocBlock).Numbered n where
  firstLine := Nat.le_refl n
  ascending := .nil
  within := by simp

/-- Nothing but the tags of a block bears numbers. -/
theorem of_eq {b' : DocBlock} (hb : b.Numbered n) (hfirst : b'.firstLine = b.firstLine)
    (htags : b'.tags = b.tags) : b'.Numbered n where
  firstLine := hfirst ▸ hb.firstLine
  ascending := htags ▸ hb.ascending
  within := by
    rw [hfirst, htags]
    exact hb.within

theorem succ (hb : b.Numbered n) : b.Numbered (n + 1) where
  firstLine := Nat.le_succ_of_le hb.firstLine
  ascending := hb.ascending
  within := fun t ht => ⟨(hb.within t ht).1, Nat.lt_succ_of_lt (hb.within t ht).2⟩

theorem addTag (hb : b.Numbered n) (name operand : Text) :
    (b.addTag ⟨n, name, operand⟩).Numbered (n + 1) where
  firstLine := Nat.le_succ_of_le hb.firstLine
  ascending := by
    refine List.pairwise_append.mpr ⟨hb.ascending, List.pairwise_singleton _ _, ?_⟩
    intro t ht t' ht'
    rw [List.mem_singleton.mp ht']
    exact (hb.within t ht).2
  within := by
    intro t ht
    rcases List.mem_append.mp ht with hold | hnew
    · exact hb.succ.within t hold
    · rw [List.mem_singleton.mp hnew]
      exact ⟨hb.firstLine, Nat.lt_succ_self n⟩

end DocBlock.Numbered

namespace Reading

/-! ## The documentation -/

/-- What is documented agrees with the names that classes stand for, and with the record of
whether the module has been described. -/
structure Coherent (r : Reading) : Prop where
  inRange : r.InRange
  bound : ∀ c ∈ r.doc.classes, ∃ number, List.lookup c.name r.owners = some number
  described : r.doc.isClassModule ∨ r.moduleName.isSome → r.described

variable {r r' : Reading} {n : ℕ}

theorem coherent_initial : ({} : Reading).Coherent where
  inRange := by simp [InRange]
  bound := by simp
  described := by simp

/-- The name of a class stands for the class from then on, and it is never taken away. -/
theorem bound_attach
    (hr : ∀ c ∈ r.doc.classes, ∃ number, List.lookup c.name r.owners = some number)
    {b : DocBlock} {d : Declaration} (h : r.attach b d = .ok r') :
    ∀ c ∈ r'.doc.classes, ∃ number, List.lookup c.name r'.owners = some number := by
  intro c hc
  cases attaches_of_attach h with
  | addsClass tag added htag hname hmethods hclasses hfunctions howners =>
      rw [howners]
      split
      · exact ⟨_, rfl⟩
      · rename_i hother
        rw [hclasses, List.mem_append, List.mem_singleton] at hc
        rcases hc with hold | rfl
        · exact hr c hold
        · exact absurd (.inl rfl) hother
  | addsMethod _ _ _ _ f number _ _ _ _ hclasses _ howners =>
      rw [howners]
      rw [hclasses] at hc
      obtain ⟨i, hi⟩ := List.mem_iff_getElem?.mp hc
      rw [List.getElem?_modify] at hi
      obtain ⟨old, hold, rfl⟩ := Option.map_eq_some_iff.mp hi
      obtain ⟨bound, hbound⟩ := hr old (List.mem_of_getElem? hold)
      refine ⟨bound, ?_⟩
      -- a class that gets a method keeps its name
      split
      · exact hbound
      · exact hbound
  | addsFunction _ _ _ _ _ _ _ _ _ hclasses _ howners =>
      rw [howners]
      exact hr c (hclasses ▸ hc)
  | addsNothing _ _ hclasses _ howners =>
      rw [howners]
      exact hr c (hclasses ▸ hc)

theorem described_attachModule (hr : r.doc.isClassModule ∨ r.moduleName.isSome → r.described)
    {b : DocBlock} {d : Declaration} {describes : Bool}
    (h : r.attachModule b d = .ok (r', describes)) :
    r'.doc.isClassModule ∨ r'.moduleName.isSome → r'.described := by
  unfold attachModule at h
  split at h
  · obtain ⟨name, -, h⟩ := exists_of_bind_ok h
    cases h
    exact fun _ => rfl
  · split at h
    · cases h
      exact fun _ => rfl
    · cases h
      exact hr

theorem coherent_attach (hr : r.Coherent) {b : DocBlock} {d : Declaration}
    (h : r.attach b d = .ok r') : r'.Coherent where
  inRange := inRange_attach hr.inRange h
  bound := bound_attach hr.bound h
  described := by
    obtain ⟨s, describes, hmodule, hframe⟩ := exists_sameFrame_of_attach h
    have hdescribed := described_attachModule hr.described hmodule
    rw [hframe]
    exact hdescribed

theorem keptByBlocks_coherent : KeptByBlocks Coherent where
  place := fun _ _ _ _ hr => ⟨hr.inRange, hr.bound, hr.described⟩
  attach := fun hr h => coherent_attach hr h

/-! ## Lines -/

/-- What holds of a reading in front of the line with the number `next`. -/
structure Sound (r : Reading) (next : ℕ) : Prop extends Coherent r where
  usage : r.inUsage → ∃ b lines, r.block = some b ∧ b.usage = some lines
  numbered : ∀ b, r.block = some b → b.Numbered next

theorem Sound.of_outside (hr : r.Coherent) (hout : r.Outside) (next : ℕ) : r.Sound next where
  toCoherent := hr
  usage := by simp [hout.2]
  numbered := by simp [hout.1]

theorem Sound.openBlock (hr : r.Sound n) : (r.openBlock n).Numbered n := by
  unfold Reading.openBlock
  cases hblock : r.block with
  | none => exact .first n
  | some b => exact hr.numbered b hblock

theorem Sound.separator (hr : r.Sound n) :
    ({ r with block := r.block.map (·.addText []) } : Reading).Sound (n + 1) where
  toCoherent := keptByBlocks_coherent.place r _ _ _ hr.toCoherent
  usage := by
    intro h
    obtain ⟨b, lines, hblock, hlines⟩ := hr.usage h
    exact ⟨b.addText [], lines, by simp [hblock], hlines⟩
  numbered := by
    intro b hb
    obtain ⟨old, hold, rfl⟩ := Option.map_eq_some_iff.mp hb
    exact (hr.numbered old hold).succ.of_eq rfl rfl

theorem Sound.addTag (hr : r.Sound n) (name operand : Text) :
    (r.addTag n name operand).Sound (n + 1) where
  toCoherent := keptByBlocks_coherent.place r _ _ _ hr.toCoherent
  usage := by
    intro h
    have hname : name = "usage".toList := of_decide_eq_true h
    exact ⟨_, _, rfl, by rw [hname]; rfl⟩
  numbered := by
    intro b hb
    cases hb
    refine DocBlock.Numbered.addTag ?_ name operand
    split
    · exact hr.openBlock.of_eq rfl rfl
    · exact hr.openBlock

theorem Sound.addContent (hr : r.Sound n) (content : Text) :
    (r.addContent n content).Sound (n + 1) where
  toCoherent := keptByBlocks_coherent.place r _ _ _ hr.toCoherent
  usage := by
    intro h
    have hmode : r.inUsage := h
    exact ⟨_, _, rfl, by rw [if_pos hmode]; rfl⟩
  numbered := by
    intro b hb
    cases hb
    split
    · exact hr.openBlock.succ.of_eq rfl rfl
    · exact hr.openBlock.succ.of_eq rfl rfl

theorem Sound.close (hr : r.Sound n) {d : Declaration} (h : r.close d = .ok r') (next : ℕ) :
    r'.Sound next :=
  .of_outside (keptByBlocks_coherent.close hr.toCoherent h) (outside_of_close h).1 next

theorem Sound.readLine (hr : r.Sound n) {l : SourceLine} (h : r.readLine (l, n) = .ok r') :
    r'.Sound (n + 1) := by
  cases l with
  | separator =>
      cases h
      exact hr.separator
  | tag name operand =>
      cases h
      exact hr.addTag name operand
  | text content =>
      cases h
      exact hr.addContent content
  | gap => exact hr.close h (n + 1)
  | code line =>
      obtain ⟨s, hclose, rfl⟩ := exists_of_map_ok h
      have hs := hr.close hclose (n + 1)
      exact ⟨keptByBlocks_coherent.place s _ _ true hs.toCoherent, hs.usage, hs.numbered⟩

theorem Sound.run {lines : List Text} (hr : r.Sound n) (h : r.run (lines.zipIdx n) = .ok r') :
    r'.Sound (n + lines.length) := by
  -- on the lines still to come; the invariant carries the number of the next one
  induction lines generalizing r n with
  | nil =>
      cases h
      exact hr
  | cons line lines ih =>
      rw [Reading.run, List.zipIdx_cons, List.foldlM_cons] at h
      obtain ⟨s, hstep, hrest⟩ := exists_of_bind_ok h
      have hline : r.readLine (.ofText line, n) = .ok s := hstep
      have hr' := ih (hr.readLine hline) hrest
      rw [List.length_cons, Nat.add_comm lines.length 1, ← Nat.add_assoc]
      exact hr'

/-- Whatever lines are read without a fault, the reading is sound behind them. -/
theorem sound_of_run {lines : List Text} (h : ({} : Reading).run (lines.zipIdx 1) = .ok r) :
    r.Sound (lines.length + 1) := by
  have hinitial : ({} : Reading).Sound 1 := .of_outside coherent_initial ⟨rfl, rfl⟩ 1
  rw [Nat.add_comm]
  exact hinitial.run h

/-- A class module with a class under two names, and a block with an open usage section. -/
def openUsageLines : List Text :=
  ["--- Shapes.", "---@classmod shapes", "---@class Box", "local B = {}", "---", "--- Opens.",
    "---@param w number The width", "---@usage", "--- box:open(1)"].map String.toList

theorem sound_of_run_openUsage :
    ∃ r, ({} : Reading).run (openUsageLines.zipIdx 1) = .ok r ∧ r.inUsage ∧
      r.block.map (fun b => (b.firstLine, b.tags.map (·.line))) = some (5, [7, 8]) ∧
      r.owners = [("B".toList, 0), ("Box".toList, 0)] ∧ r.moduleName = some "shapes".toList ∧
      r.Sound (openUsageLines.length + 1) := by
  have hmap : (({} : Reading).run (openUsageLines.zipIdx 1)).map (fun r =>
      r.inUsage &&
        (r.block.map (fun b => (b.firstLine, b.tags.map (·.line))) = some (5, [7, 8]) &&
          (r.owners = [("B".toList, 0), ("Box".toList, 0)] &&
            r.moduleName = some "shapes".toList))) = .ok true := by
    decide +kernel
  obtain ⟨r, hrun, hr⟩ := exists_of_map_ok hmap
  simp only [Bool.and_eq_true, decide_eq_true_eq] at hr
  obtain ⟨husage, hblock, howners, hname⟩ := hr
  exact ⟨r, hrun, husage, hblock, howners, hname, sound_of_run hrun⟩

end Reading

end DocComment
end ApiManual
