import ApiManual.Proofs.FileTree.Change
import ApiManual.Site.Generate

/-!
# Writing pages

A page is written below the output root, where its path leads name by name.  Whether it
can be written, and what the output root holds afterwards, follows from what the output
root holds before.
-/

namespace ApiManual
namespace Site

open ApiManual.Path ApiManual.FileTree

/-- A place below the output root at which a page may be written. -/
structure PagePlace where
  directories : Location
  name : Text
  names : ∀ d ∈ directories, IsName d
  noSlash : '/' ∉ name
  counts : (pieceComponent? name).isSome

namespace PagePlace

/-- The names that lead to the page. -/
def location (p : PagePlace) : Location :=
  p.directories ++ [p.name]

def path (p : PagePlace) : Text :=
  ofNames p.location

theorem splitOn_path (p : PagePlace) : p.path.splitOn '/' = p.directories ++ [p.name] :=
  splitOn_ofNames_concat (fun d hd => (p.names d hd).noSlash) p.noSlash

theorem name_ne_nil (p : PagePlace) : p.name ≠ [] := by
  intro hnil
  have hcounts := p.counts
  rw [hnil] at hcounts
  cases hcounts

theorem isAbsolute_path (p : PagePlace) : isAbsolute p.path = false := by
  cases hdirectories : p.directories with
  | nil =>
      have hsplit := p.splitOn_path
      rw [hdirectories, List.nil_append] at hsplit
      exact isAbsolute_of_splitOn hsplit p.name_ne_nil
  | cons d rest =>
      have hsplit := p.splitOn_path
      rw [hdirectories, List.cons_append] at hsplit
      exact isAbsolute_of_splitOn hsplit (p.names d (by simp [hdirectories])).ne_nil

theorem splitOn_join (p : PagePlace) {root : Text} (hroot : root ≠ []) :
    (join root p.path).splitOn '/' = (basePieces root ++ p.directories) ++ [p.name] := by
  rw [Path.splitOn_join hroot p.isAbsolute_path, p.splitOn_path, List.append_assoc]

/-- Whether the page can be written below `out`, as far as the tree is concerned. -/
def Writable (p : PagePlace) (t : FileTree) (out : Location) : Prop :=
  (t.createPieces out p.directories).2 ∧ isName p.name ∧
    ¬ (t.createPieces out p.directories).1.isDirectoryAt (out ++ p.location)

/-- The tree with the page written below `out`. -/
def written (p : PagePlace) (t : FileTree) (out : Location) (content : Text) : FileTree :=
  (t.createPieces out p.directories).1.insert (out ++ p.location)
    (.file (String.ofList content).toUTF8)

end PagePlace

section
variable {t : FileTree} {root : Text} {out : Location}

/-- The directories of a page are made where the output root leads. -/
theorem createDirectories_parent (hout : t.Reaches root out) (p : PagePlace)
    (hshort : isPath (join root p.path)) :
    t.createDirectories ((parent? (join root p.path)).getD []) =
      t.createPieces out p.directories := by
  have hne := hout.ne_nil
  obtain ⟨c, hc⟩ := Option.isSome_iff_exists.mp p.counts
  obtain ⟨parent, hparent, hparentNe, hprefix, hinner⟩ :=
    exists_parent (p.splitOn_join hne) (by simp [basePieces_ne_nil]) hc
  have hparentShort := isPath_of_le (Text.byteLength_le_of_prefix hprefix) hshort
  have hstart : t.startOf parent = t.startOf root := by
    rw [startOf, isAbsolute_of_prefix hprefix hparentNe, isAbsolute_join hne p.isAbsolute_path,
      startOf]
  have hpieces := createPieces_eq_of_filterMap hinner t (t.startOf root)
  rw [hparent, Option.getD_some, createDirectories, if_pos hparentShort, hstart, hpieces]
  exact createPieces_append (foldlM_basePieces hout.leads) hout.isDirectory _

theorem write?_of_long {path : Text} (h : ¬ isPath path) (t : FileTree) (content : ByteArray) :
    t.write? path content = none := by
  have hlong : isPath path = false := by simpa using h
  simp [write?, hlong]

theorem write?_eq {path name : Text} {pieces : List Text} {place : Location}
    (hsplit : path.splitOn '/' = pieces ++ [name])
    (hfold : pieces.foldlM t.enter? (t.startOf path) = some place) (content : ByteArray) :
    t.write? path content =
      if isPath path && t.isDirectoryAt place && isName name &&
          !t.isDirectoryAt (place ++ [name]) then
        some (t.insert (place ++ [name]) (.file content))
      else none := by
  simp only [write?, hsplit, List.dropLast_concat, hfold, List.getLast?_concat,
    Option.bind_eq_bind, Option.bind_some]

/-- After its directories have been made, a page can be written unless its own name is bad
or a directory is in its way. -/
theorem write?_join (hout : t.Reaches root out) (p : PagePlace)
    (hmade : (t.createPieces out p.directories).2) (content : ByteArray) :
    (t.createPieces out p.directories).1.write? (join root p.path) content =
      if isPath (join root p.path) && isName p.name &&
          !(t.createPieces out p.directories).1.isDirectoryAt (out ++ p.location) then
        some ((t.createPieces out p.directories).1.insert (out ++ p.location) (.file content))
      else none := by
  have hne := hout.ne_nil
  obtain ⟨hfold, hdir⟩ := foldlM_createPieces p.names hout.isDirectory hmade
  have hroot' := (extends_createPieces t out p.directories).locate? hout.leads
  have hway : (basePieces root ++ p.directories).foldlM (t.createPieces out p.directories).1.enter?
      ((t.createPieces out p.directories).1.startOf (join root p.path)) =
        some (out ++ p.directories) := by
    rw [startOf_join hne p.isAbsolute_path, List.foldlM_append, foldlM_basePieces hroot']
    exact hfold
  rw [write?_eq (p.splitOn_join hne) hway, hdir, Bool.and_true, List.append_assoc,
    PagePlace.location]

theorem writePage_of_writable (hout : t.Reaches root out)
    {p : PagePlace} (hshort : isPath (join root p.path)) (hp : p.Writable t out) (content : Text) :
    writePage t (join root p.path) content = (.ok (), p.written t out content) := by
  obtain ⟨hmade, hname, hfree⟩ := hp
  have hdirectories := createDirectories_parent hout p hshort
  have hwrite := write?_join hout p hmade (String.ofList content).toUTF8
  rw [hshort, hname, Bool.eq_false_iff.mpr hfree] at hwrite
  unfold writePage
  simp only [hdirectories, hmade, hwrite]
  rfl

theorem exists_writePage_error (hout : t.Reaches root out)
    {p : PagePlace} (h : ¬ (isPath (join root p.path) ∧ p.Writable t out)) (content : Text) :
    ∃ e t', writePage t (join root p.path) content = (.error e, t') := by
  obtain ⟨made, hdirectories⟩ :
      ∃ made, t.createDirectories ((parent? (join root p.path)).getD []) = made := ⟨_, rfl⟩
  obtain ⟨t', created⟩ := made
  cases created with
  | false =>
      simp only [writePage, hdirectories]
      exact ⟨_, _, rfl⟩
  | true =>
      have hwrite : t'.write? (join root p.path) (String.ofList content).toUTF8 = none := by
        by_cases hshort : isPath (join root p.path)
        · rw [createDirectories_parent hout p hshort] at hdirectories
          have hmade : (t.createPieces out p.directories).2 := by rw [hdirectories]
          have hbad : (isPath (join root p.path) && isName p.name &&
              !(t.createPieces out p.directories).1.isDirectoryAt (out ++ p.location)) = false := by
            by_contra hgood
            simp only [Bool.not_eq_false, Bool.and_eq_true, Bool.not_eq_true'] at hgood
            exact h ⟨hshort, hmade, hgood.1.2, by simp [hgood.2]⟩
          have hjoin := write?_join hout p hmade (String.ofList content).toUTF8
          rw [hbad, hdirectories] at hjoin
          simpa using hjoin
        · exact write?_of_long hshort t' _
      simp only [writePage, hdirectories, hwrite]
      exact ⟨_, _, rfl⟩

theorem PagePlace.Writable.extends {p : PagePlace} (h : p.Writable t out) (content : Text) :
    t.Extends (p.written t out content) :=
  (extends_createPieces t out p.directories).trans (.insert h.2.2 _)

end

/-! ## Two output roots -/

section
variable {t₁ t₂ : FileTree} {root₁ root₂ : Text} {out₁ out₂ : Location}

theorem PagePlace.createPieces_mirrors (h : Mirrors t₁ out₁ t₂ out₂) (p : PagePlace) :
    (t₁.createPieces out₁ p.directories).2 = (t₂.createPieces out₂ p.directories).2 ∧
      Mirrors (t₁.createPieces out₁ p.directories).1 out₁
        (t₂.createPieces out₂ p.directories).1 out₂ := by
  have hmade := h.createPieces [] p.names
  rwa [List.append_nil, List.append_nil] at hmade

theorem PagePlace.writable_iff (h : Mirrors t₁ out₁ t₂ out₂) (p : PagePlace) :
    p.Writable t₁ out₁ ↔ p.Writable t₂ out₂ := by
  obtain ⟨hmade, hmirrors⟩ := p.createPieces_mirrors h
  rw [Writable, Writable, hmade, hmirrors.isDirectoryAt]

theorem PagePlace.written_mirrors (h : Mirrors t₁ out₁ t₂ out₂) {p : PagePlace}
    (hp : p.Writable t₁ out₁) (content : Text) :
    Mirrors (p.written t₁ out₁ content) out₁ (p.written t₂ out₂ content) out₂ :=
  (p.createPieces_mirrors h).2.insert hp.2.2 _

/-- Pages that are written below two output roots that look the same end up looking the
same, or cannot be written below either. -/
theorem writePages_mirrors (h₁ : t₁.Reaches root₁ out₁) (h₂ : t₂.Reaches root₂ out₂)
    (h : Mirrors t₁ out₁ t₂ out₂) {pages : List (PagePlace × Text)}
    (hroom : ∀ page ∈ pages, isPath (join root₁ page.1.path) ↔ isPath (join root₂ page.1.path)) :
    (∃ e₁ e₂ t₁' t₂',
      writePages t₁ root₁ (pages.map fun (p, text) => (p.path, text)) = (.error e₁, t₁') ∧
        writePages t₂ root₂ (pages.map fun (p, text) => (p.path, text)) = (.error e₂, t₂')) ∨
      ∃ t₁' t₂',
        writePages t₁ root₁ (pages.map fun (p, text) => (p.path, text)) = (.ok (), t₁') ∧
          writePages t₂ root₂ (pages.map fun (p, text) => (p.path, text)) = (.ok (), t₂') ∧
          Mirrors t₁' out₁ t₂' out₂ := by
  induction pages generalizing t₁ t₂ with
  | nil => exact .inr ⟨t₁, t₂, rfl, rfl, h⟩
  | cons page pages ih =>
      obtain ⟨p, text⟩ := page
      rw [List.forall_mem_cons] at hroom
      by_cases hp : isPath (join root₁ p.path) ∧ p.Writable t₁ out₁
      · have hp' : isPath (join root₂ p.path) ∧ p.Writable t₂ out₂ :=
          ⟨hroom.1.mp hp.1, (p.writable_iff h).mp hp.2⟩
        have hwrite := writePage_of_writable h₁ hp.1 hp.2 text
        have hwrite' := writePage_of_writable h₂ hp'.1 hp'.2 text
        simp only [List.map_cons, writePages, hwrite, hwrite']
        exact ih ((hp.2.extends text).reaches h₁) ((hp'.2.extends text).reaches h₂)
          (p.written_mirrors h hp.2 text) hroom.2
      · have hp' : ¬ (isPath (join root₂ p.path) ∧ p.Writable t₂ out₂) := by
          rwa [← hroom.1, ← p.writable_iff h]
        obtain ⟨e₁, t₁', hwrite⟩ := exists_writePage_error h₁ hp text
        obtain ⟨e₂, t₂', hwrite'⟩ := exists_writePage_error h₂ hp' text
        simp only [List.map_cons, writePages, hwrite, hwrite']
        exact .inl ⟨e₁, e₂, t₁', t₂', rfl, rfl⟩

end

end Site
end ApiManual
