import ApiManual.Proofs.FileTree.Destination
import ApiManual.Proofs.Site.Writing

/-!
# What a run writes

A page that has been written stands at the destination of its path.  Of several pages
with one destination the last one stays.  Where pages have been written once they can be
written again, and then nothing but their contents changes.
-/

namespace ApiManual
namespace Site

open ApiManual.Path ApiManual.FileTree

/-! ## One page -/

section
variable {t t' : FileTree} {path : Text} {content : ByteArray}

theorem isName_of_good {name : Text} (h : isName name) (hslash : '/' ∉ name) : IsName name := by
  simp only [isName, Bool.and_eq_true, Bool.not_eq_true', List.isEmpty_eq_false_iff,
    decide_eq_true_eq] at h
  exact isName_iff.mpr ⟨h.1.1.1.1, h.1.1.1.2, h.1.1.2, hslash⟩

/-- What a file that was written has behind it. -/
structure WriteForm (t : FileTree) (path : Text) (pieces : List Text) (name : Text)
    (place : Location) : Prop where
  split : path.splitOn '/' = pieces ++ [name]
  follow : pieces.foldlM t.enter? (t.startOf path) = some place
  short : isPath path
  directory : t.isDirectoryAt place
  good : isName name

section
variable {pieces : List Text} {name : Text} {place : Location}

theorem WriteForm.isName (h : WriteForm t path pieces name place) : IsName name := by
  have hmem : name ∈ path.splitOn '/' := by simp [h.split]
  exact isName_of_good h.good (noSlash_of_mem_splitOn hmem)

theorem WriteForm.destination_eq (h : WriteForm t path pieces name place) :
    t.destination path = place ++ [name] := by
  rw [destination, h.split, List.foldl_append, ← eq_foldl_lead_of_foldlM h.follow, List.foldl_cons,
    List.foldl_nil, lead_of_isName h.isName]

theorem WriteForm.of_extends (h : WriteForm t path pieces name place) (ht : t.Extends t') :
    WriteForm t' path pieces name place where
  split := h.split
  follow := by
    rw [startOf_eq ht.workingDirectory]
    exact ht.foldlM_enter? h.follow
  short := h.short
  directory := ht.directories _ h.directory
  good := h.good

theorem WriteForm.write?_eq (h : WriteForm t path pieces name place)
    (hfree : ¬ t.isDirectoryAt (t.destination path)) (content : ByteArray) :
    t.write? path content = some (t.insert (t.destination path) (.file content)) := by
  have hblocked : t.isDirectoryAt (place ++ [name]) = false := by
    rw [← h.destination_eq]
    simpa using hfree
  rw [Site.write?_eq h.split h.follow, h.short, h.directory, h.good, hblocked, h.destination_eq]
  rfl

/-- A file that stands where it was written is found there. -/
theorem WriteForm.locate?_eq (h : WriteForm t path pieces name place)
    (hthere : (t.node? (t.destination path)).isSome) :
    t.locate? path = some (t.destination path) := by
  have hne : path ≠ [] := by
    rintro rfl
    have hlast := congrArg List.getLast? h.split
    rw [List.splitOn_nil, List.getLast?_concat] at hlast
    exact h.isName.ne_nil (Option.some.inj hlast).symm
  rw [h.destination_eq] at hthere ⊢
  refine locate?_eq_some_iff.mpr ⟨hne, h.short, ?_⟩
  rw [h.split, List.foldlM_append, h.follow]
  simp [enter?_name h.directory h.isName, hthere]

end

theorem exists_of_write? (h : t.write? path content = some t') :
    ¬ t.isDirectoryAt (t.destination path) ∧
      t' = t.insert (t.destination path) (.file content) ∧
        ∃ pieces name place, WriteForm t path pieces name place := by
  obtain ⟨pieces, name, hsplit⟩ :=
    (List.eq_nil_or_concat' (path.splitOn '/')).resolve_left (List.splitOn_ne_nil '/' path)
  cases hfold : pieces.foldlM t.enter? (t.startOf path) with
  | none => simp [write?, hsplit, hfold] at h
  | some place =>
      rw [Site.write?_eq hsplit hfold] at h
      split at h
      · rename_i hgood
        simp only [Bool.and_eq_true, Bool.not_eq_true'] at hgood
        obtain ⟨⟨⟨hshort, hdirectory⟩, hname⟩, hfree⟩ := hgood
        have hform : WriteForm t path pieces name place :=
          ⟨hsplit, hfold, hshort, hdirectory, hname⟩
        rw [hform.destination_eq]
        exact ⟨by simp [hfree], (Option.some.inj h).symm, pieces, name, place, hform⟩
      · cases h

theorem createDirectories_effect {parent : Text} {u : FileTree}
    (h : t.createDirectories parent = (u, true)) :
    t.AddsDirectories u ∧ ∀ w, u.Extends w → w.createDirectories parent = (w, true) := by
  unfold createDirectories at h
  split at h
  · rename_i hshort
    have hadds := addsDirectories_createPieces t (t.startOf parent) (parent.splitOn '/')
    rw [h] at hadds
    refine ⟨hadds, fun w hw => ?_⟩
    rw [createDirectories, if_pos hshort,
      startOf_eq (hadds.extends.trans hw).workingDirectory]
    apply createPieces_again <;> rw [h]
    exact hw
  · cases h

/-- The bytes of a page. -/
def pageBytes (text : Text) : ByteArray :=
  (String.ofList text).toUTF8

section
variable {text : Text}

/-- A page is written after the directories above it have been made. -/
theorem exists_of_writePage (h : writePage t path text = (.ok (), t')) :
    ∃ u, t.createDirectories ((parent? path).getD []) = (u, true) ∧
      u.write? path (pageBytes text) = some t' := by
  obtain ⟨made, hmade⟩ : ∃ made, t.createDirectories ((parent? path).getD []) = made := ⟨_, rfl⟩
  obtain ⟨u, created⟩ := made
  unfold writePage at h
  simp only [hmade] at h
  cases created with
  | false => cases h
  | true =>
      refine ⟨u, hmade, ?_⟩
      have hbytes : (String.ofList text).toUTF8 = pageBytes text := rfl
      cases hwrite : u.write? path (pageBytes text) with
      | none =>
          simp only [hbytes, hwrite] at h
          cases h
      | some t'' =>
          simp only [hbytes, hwrite] at h
          exact congrArg some (Prod.mk.inj h).2

/-- The page is at its destination, and nothing else has changed but for directories that
were missing. -/
theorem writePage_effect (h : writePage t path text = (.ok (), t')) :
    ∃ u, t.AddsDirectories u ∧ ¬ u.isDirectoryAt (t.destination path) ∧
      t' = u.insert (t.destination path) (.file (pageBytes text)) ∧
        ∃ pieces name place, WriteForm u path pieces name place := by
  obtain ⟨u, hmade, hwrite⟩ := exists_of_writePage h
  obtain ⟨hfree, ht', hform⟩ := exists_of_write? hwrite
  have hadds := (createDirectories_effect hmade).1
  rw [hadds.extends.destination_eq] at hfree ht'
  exact ⟨u, hadds, hfree, ht', hform⟩

theorem writePage_extends (h : writePage t path text = (.ok (), t')) : t.Extends t' := by
  obtain ⟨u, hadds, hfree, rfl, -⟩ := writePage_effect h
  exact hadds.extends.trans (.insert hfree _)

/-- Where a page has been written, any text can be written again. -/
theorem writePage_again (h : writePage t path text = (.ok (), t')) {w : FileTree}
    (hw : t'.Extends w) (hfree : ¬ w.isDirectoryAt (t.destination path)) (text' : Text) :
    writePage w path text' =
      (.ok (), w.insert (t.destination path) (.file (pageBytes text'))) := by
  have hall := (writePage_extends h).trans hw
  obtain ⟨u, hmade, hwrite⟩ := exists_of_writePage h
  obtain ⟨hblocked, ht', pieces, name, place, hform⟩ := exists_of_write? hwrite
  have huw : u.Extends w := (ht' ▸ Extends.insert hblocked _ : u.Extends t').trans hw
  have hcreate := (createDirectories_effect hmade).2 w huw
  rw [← hall.destination_eq] at hfree ⊢
  have hagain := (hform.of_extends huw).write?_eq hfree (pageBytes text')
  have hbytes : (String.ofList text').toUTF8 = pageBytes text' := rfl
  simp only [writePage, hcreate, hbytes, hagain]
  rfl

end

end

/-! ## All pages -/

/-- What is written where, one page after the other. -/
def writes (t : FileTree) (root : Text) (pages : List (Text × Text)) :
    List (Location × ByteArray) :=
  pages.map fun (path, text) => (t.destination (join root path), pageBytes text)

/-- The content written last at a place. -/
def lastWritten (ws : List (Location × ByteArray)) (q : Location) : Option ByteArray :=
  ws.reverse.lookup q

section
variable {ws : List (Location × ByteArray)} {q : Location}

theorem lastWritten_cons (d : Location) (content : ByteArray) :
    lastWritten ((d, content) :: ws) q =
      (lastWritten ws q).or (if q = d then some content else none) := by
  rw [lastWritten, List.reverse_cons, List.lookup_append, lookup_cons_if]
  rfl

theorem lastWritten_eq_none_iff : lastWritten ws q = none ↔ q ∉ ws.map Prod.fst := by
  rw [← Option.not_isSome_iff_eq_none, lastWritten, isSome_lookup_iff, List.map_reverse,
    List.mem_reverse]

end

/-- What a tree is when the writes have been done. -/
structure Wrote (t : FileTree) (ws : List (Location × ByteArray)) (t' : FileTree) : Prop where
  keeps : t.Extends t'
  written : ∀ q content, lastWritten ws q = some content → t'.node? q = some (.file content)
  others : ∀ q, q ∉ ws.map Prod.fst →
    t'.node? q = t.node? q ∨ t.node? q = none ∧ t'.node? q = some .directory

section
variable {t t' : FileTree}

theorem Wrote.refl (t : FileTree) : Wrote t [] t where
  keeps := .refl t
  written := by
    intro q content hq
    cases hq
  others := fun _ _ => .inl rfl

theorem Wrote.cons {u : FileTree} {d : Location} {content : ByteArray}
    {ws : List (Location × ByteArray)} (hadds : t.AddsDirectories u)
    (hfree : ¬ u.isDirectoryAt d) (h : Wrote (u.insert d (.file content)) ws t') :
    Wrote t ((d, content) :: ws) t' where
  keeps := (hadds.extends.trans (.insert hfree _)).trans h.keeps
  written := by
    intro q last hq
    rw [lastWritten_cons] at hq
    cases hlater : lastWritten ws q with
    | some later =>
        rw [hlater, Option.some_or] at hq
        exact h.written q last (hlater.trans hq)
    | none =>
        rw [hlater, Option.none_or] at hq
        split at hq
        · rename_i hd
          cases hq
          have hq' := h.others q (lastWritten_eq_none_iff.mp hlater)
          rw [node?_insert hfree, if_pos hd] at hq'
          rcases hq' with hkept | ⟨hnone, -⟩
          · exact hkept
          · cases hnone
        · cases hq
  others := by
    intro q hq
    rw [List.map_cons, List.mem_cons, not_or] at hq
    have hq' := h.others q hq.2
    rw [node?_insert hfree, if_neg hq.1] at hq'
    rcases hadds.nodes q with hkept | ⟨hnone, hnew⟩
    · rwa [hkept] at hq'
    · rw [hnew] at hq'
      rcases hq' with hkept | ⟨hcontra, -⟩
      · exact .inr ⟨hnone, hkept⟩
      · cases hcontra

end

section
variable {t t' : FileTree} {root : Text} {pages : List (Text × Text)}

theorem writes_cons (t : FileTree) (root path text : Text) (pages : List (Text × Text)) :
    writes t root ((path, text) :: pages) =
      (t.destination (join root path), pageBytes text) :: writes t root pages := rfl

theorem writes_of_extends (h : t.Extends t') (root : Text) (pages : List (Text × Text)) :
    writes t' root pages = writes t root pages := by
  simp only [writes, h.destination_eq]

theorem exists_of_writePages_cons {path text : Text}
    (h : writePages t root ((path, text) :: pages) = (.ok (), t')) :
    ∃ t₁, writePage t (join root path) text = (.ok (), t₁) ∧
      writePages t₁ root pages = (.ok (), t') := by
  obtain ⟨outcome, houtcome⟩ : ∃ outcome, writePage t (join root path) text = outcome := ⟨_, rfl⟩
  obtain ⟨result, t₁⟩ := outcome
  rw [writePages, houtcome] at h
  cases result with
  | error e => cases h
  | ok _ => exact ⟨t₁, houtcome, h⟩

/-- A run that writes all its pages leaves the last one at each destination. -/
theorem wrote_writePages (h : writePages t root pages = (.ok (), t')) :
    Wrote t (writes t root pages) t' := by
  induction pages generalizing t with
  | nil =>
      cases h
      exact .refl _
  | cons page pages ih =>
      obtain ⟨path, text⟩ := page
      obtain ⟨t₁, hpage, hrest⟩ := exists_of_writePages_cons h
      have hlater := ih hrest
      rw [writes_of_extends (writePage_extends hpage)] at hlater
      obtain ⟨u, hadds, hfree, rfl, -⟩ := writePage_effect hpage
      rw [writes_cons]
      exact .cons hadds hfree hlater

/-- All the pages can be written again, and only their destinations change. -/
theorem writePages_again (h : writePages t root pages = (.ok (), t')) {w : FileTree}
    (hw : t'.Extends w) (hfree : ∀ d ∈ (writes t root pages).map Prod.fst, ¬ w.isDirectoryAt d) :
    ∃ w', writePages w root pages = (.ok (), w') ∧
      ∀ q, w'.node? q = ((lastWritten (writes t root pages) q).map Node.file).or (w.node? q) := by
  induction pages generalizing t w with
  | nil => exact ⟨w, rfl, fun q => rfl⟩
  | cons page pages ih =>
      obtain ⟨path, text⟩ := page
      obtain ⟨t₁, hpage, hrest⟩ := exists_of_writePages_cons h
      rw [writes_cons, List.map_cons, List.forall_mem_cons] at hfree
      have hagain := writePage_again hpage ((wrote_writePages hrest).keeps.trans hw) hfree.1 text
      have hinsert := Extends.insert hfree.1 (.file (pageBytes text))
      have hwrites := writes_of_extends (writePage_extends hpage) root pages
      have hfree' : ∀ d ∈ (writes t₁ root pages).map Prod.fst, ¬ (w.insert
          (t.destination (join root path)) (.file (pageBytes text))).isDirectoryAt d := by
        intro d hd
        rw [hwrites] at hd
        rw [isDirectoryAt_iff, node?_insert hfree.1]
        split
        · simp
        · rw [← isDirectoryAt_iff]
          exact hfree.2 d hd
      obtain ⟨w', hrun, hnodes⟩ := ih hrest (hw.trans hinsert) hfree'
      refine ⟨w', by rw [writePages, hagain]; exact hrun, fun q => ?_⟩
      rw [hnodes, hwrites, writes_cons, lastWritten_cons, node?_insert hfree.1]
      cases lastWritten (writes t root pages) q with
      | some later => rfl
      | none => split <;> rfl

end

end Site
end ApiManual
