import ApiManual.Proofs.DocComment.BlockForm
import ApiManual.Proofs.Result

/-!
# Line by line and block by block

The reader of annotations carries an open block, a flag for usage sections and a flag
for code from line to line.  This file shows that the three together always say what
the block form says of the lines read so far, and that both readings end alike.
-/

namespace ApiManual
namespace DocComment

/-! ## What attaching leaves alone -/

namespace Reading

/-- Both readings stand at the same place of the source. -/
def SamePlace (r r' : Reading) : Prop :=
  r'.block = r.block ∧ r'.inUsage = r.inUsage ∧ r'.sawCode = r.sawCode

theorem SamePlace.refl (r : Reading) : r.SamePlace r :=
  ⟨rfl, rfl, rfl⟩

theorem SamePlace.trans {r r' r'' : Reading} (h : r.SamePlace r') (h' : r'.SamePlace r'') :
    r.SamePlace r'' :=
  ⟨h'.1.trans h.1, h'.2.1.trans h.2.1, h'.2.2.trans h.2.2⟩

theorem samePlace_attachModule {r r' : Reading} {b : DocBlock} {d : Declaration}
    {describes : Bool} (h : r.attachModule b d = .ok (r', describes)) : r.SamePlace r' := by
  unfold attachModule at h
  split at h
  · obtain ⟨name, -, hok⟩ := exists_of_bind_ok h
    cases hok
    exact ⟨rfl, rfl, rfl⟩
  · split at h
    · cases h
      exact ⟨rfl, rfl, rfl⟩
    · cases h
      exact SamePlace.refl r

/-- Only classes, functions and the names that classes stand for have been added. -/
def SameFrame (r r' : Reading) : Prop :=
  r' = { r with
    owners := r'.owners
    doc := { r.doc with classes := r'.doc.classes, functions := r'.doc.functions } }

theorem SameFrame.samePlace {r r' : Reading} (h : r.SameFrame r') : r.SamePlace r' := by
  rw [SameFrame] at h
  rw [h]
  exact ⟨rfl, rfl, rfl⟩

theorem sameFrame_attachClass {r r' : Reading} {b : DocBlock} {t : Tag} {isEnum : Bool}
    {d : Declaration} {describes : Bool}
    (h : r.attachClass b t isEnum d describes = .ok r') : r.SameFrame r' := by
  unfold attachClass at h
  obtain ⟨name, -, h⟩ := exists_of_bind_ok h
  obtain ⟨fields, -, h⟩ := exists_of_bind_ok h
  cases h
  rfl

theorem sameFrame_attachFunction {r r' : Reading} {b : DocBlock} {d : Declaration}
    (h : r.attachFunction b d = .ok r') : r.SameFrame r' := by
  unfold attachFunction at h
  split at h
  · obtain ⟨f, -, h⟩ := exists_of_bind_ok h
    split at h
    · cases h
      rfl
    · cases h
      rfl
  · cases h
    rfl

/-- A block is attached in two steps: it may describe the module, then its class or its
function is added. -/
theorem exists_of_attach {r r' : Reading} {b : DocBlock} {d : Declaration}
    (h : r.attach b d = .ok r') :
    ∃ s describes, r.attachModule b d = .ok (s, describes) ∧
      ((∃ t isEnum, b.classTag? = some (t, isEnum) ∧
          s.attachClass b t isEnum d describes = .ok r') ∨
        b.classTag? = none ∧ s.attachFunction b d = .ok r') := by
  unfold attach at h
  obtain ⟨_, -, h⟩ := exists_of_bind_ok h
  obtain ⟨⟨s, describes⟩, hmodule, h⟩ := exists_of_bind_ok h
  refine ⟨s, describes, hmodule, ?_⟩
  simp only at h
  split at h
  · rename_i t isEnum htag
    exact .inl ⟨t, isEnum, htag, h⟩
  · rename_i htag
    split at h
    · cases h
    · exact .inr ⟨htag, h⟩

theorem exists_sameFrame_of_attach {r r' : Reading} {b : DocBlock} {d : Declaration}
    (h : r.attach b d = .ok r') :
    ∃ s describes, r.attachModule b d = .ok (s, describes) ∧ s.SameFrame r' := by
  obtain ⟨s, describes, hmodule, ⟨t, isEnum, -, hclass⟩ | ⟨-, hfunction⟩⟩ := exists_of_attach h
  · exact ⟨s, describes, hmodule, sameFrame_attachClass hclass⟩
  · exact ⟨s, describes, hmodule, sameFrame_attachFunction hfunction⟩

theorem samePlace_attach {r r' : Reading} {b : DocBlock} {d : Declaration}
    (h : r.attach b d = .ok r') : r.SamePlace r' := by
  obtain ⟨s, describes, hmodule, hframe⟩ := exists_sameFrame_of_attach h
  exact (samePlace_attachModule hmodule).trans hframe.samePlace

/-! ## Reading a line by its meaning -/

def readLine (r : Reading) (l : PlacedLine) : Except Fault Reading :=
  match l.1 with
  | .separator => .ok { r with block := r.block.map (·.addText []) }
  | .tag name operand => .ok (r.addTag l.2 name operand)
  | .text content => .ok (r.addContent l.2 content)
  | .gap => r.close .other
  | .code line => (r.close (.ofLine line)).map fun r => { r with sawCode := true }

theorem run_numberedLines (r : Reading) (source : Text) :
    r.run (numberedLines source) = (placedLines source).foldlM readLine r := by
  unfold run placedLines
  rw [List.foldlM_map]
  rfl

/-- No block is open. -/
def Outside (r : Reading) : Prop :=
  r.block = none ∧ r.inUsage = false

theorem readLine_outer (r : Reading) {l : PlacedLine} (hl : l.1.isInner = false) :
    r.readLine l = (r.close l.1.declaration).map
      fun r => { r with sawCode := r.sawCode || l.1.isCode } := by
  obtain ⟨l, n⟩ := l
  cases l with
  | separator => cases hl
  | tag name operand => cases hl
  | text content => cases hl
  | gap =>
      simp only [readLine, SourceLine.declaration, SourceLine.isCode, Bool.or_false]
      cases r.close .other <;> rfl
  | code line => simp [readLine, SourceLine.declaration, SourceLine.isCode]

theorem readLine_outside {r : Reading} (hr : r.Outside) {l : PlacedLine}
    (hl : l.1.isDoc = false) :
    r.readLine l = .ok { r with sawCode := r.sawCode || l.1.isCode } := by
  by_cases hinner : l.1.isInner
  · have hseparator : l.1 = .separator := by
      cases h : l.1 <;> simp_all [SourceLine.isInner, SourceLine.isDoc]
    simp [readLine, hseparator, SourceLine.isCode, hr.1]
  · rw [readLine_outer r (by simpa using hinner), close, hr.1]
    simp [Except.map, hr.2]

theorem readLine_first {r : Reading} (hr : r.block = none) {l : PlacedLine}
    (hl : l.1.isDoc) :
    r.readLine l = ({ r with block := some { firstLine := l.2 } } : Reading).readLine l := by
  obtain ⟨l, n⟩ := l
  cases l with
  | tag name operand => simp [readLine, addTag, openBlock, hr]
  | text content => simp [readLine, addContent, openBlock, hr]
  | separator => cases hl
  | gap => cases hl
  | code line => cases hl

/-- A line that does not belong to the open block first ends it, and is then read as if
no block had been open. -/
theorem readLine_close {r : Reading} {b : DocBlock} (hr : r.block = some b) {l : PlacedLine}
    (hl : l.1.isInner = false) :
    r.readLine l =
      ({ r with block := none, inUsage := false } : Reading).attach b l.1.declaration >>=
        fun r => r.readLine l := by
  have hdoc : l.1.isDoc = false := by
    cases h : l.1 <;> simp_all [SourceLine.isInner]
  rw [readLine_outer r hl, close, hr]
  cases hattach : ({ r with block := none, inUsage := false } : Reading).attach b
      l.1.declaration with
  | error e => simp [hattach, Except.map, bind, Except.bind]
  | ok r' =>
      have hplace := samePlace_attach hattach
      have hr' : r'.Outside := ⟨hplace.1, hplace.2.1⟩
      simp [hattach, Except.map, bind, Except.bind, readLine_outside hr' hdoc]

end Reading

/-! ## The open block -/

theorem isInner_of_isDoc {l : SourceLine} (h : l.isDoc) : l.isInner := by
  cases l <;> first | rfl | cases h

theorem untagged_tag (name operand : Text) (n : ℕ) (ls : List PlacedLine) :
    untagged ((.tag name operand, n) :: ls) = [] := by
  simp [untagged, SourceLine.isTag]

theorem untagged_cons {l : SourceLine} (hl : l.isTag = false) (n : ℕ)
    (ls : List PlacedLine) : untagged ((l, n) :: ls) = l :: untagged ls := by
  simp [untagged, hl]

theorem tagSections_cons {l : SourceLine} (hl : l.isTag = false) (n : ℕ)
    (ls : List PlacedLine) : tagSections ((l, n) :: ls) = tagSections ls := by
  cases l with
  | tag name operand => cases hl
  | separator => rfl
  | text content => rfl
  | gap => rfl
  | code line => rfl

theorem lastUsage?_cons {l : SourceLine} (hl : l.isTag = false) (n : ℕ)
    (ls : List PlacedLine) : lastUsage? ((l, n) :: ls) = lastUsage? ls := by
  rw [lastUsage?, tagSections_cons hl, lastUsage?]

theorem lastUsage?_tag (name operand : Text) (n : ℕ) (ls : List PlacedLine) :
    lastUsage? ((.tag name operand, n) :: ls) =
      (lastUsage? ls).or
        (if name = "usage".toList then some ⟨⟨n, name, operand⟩, untagged ls⟩ else none) := by
  unfold lastUsage?
  rw [tagSections]
  by_cases hname : name = "usage".toList
  · rw [List.filter_cons_of_pos (by simp only [TagSection.isUsage, hname, decide_true]),
      List.getLast?_cons, if_pos hname]
    cases ((tagSections ls).filter (·.isUsage)).getLast? <;> rfl
  · rw [List.filter_cons_of_neg (by simp [TagSection.isUsage, -String.reduceToList, hname]),
      if_neg hname, Option.or_none]

/-- The block that an open block becomes by further lines. -/
def DocBlock.extend (b : DocBlock) (inUsage : Bool) (ls : List PlacedLine) : DocBlock where
  firstLine := b.firstLine
  text :=
    b.text ++
      ((untagged ls).filterMap
          (if inUsage then SourceLine.break? else SourceLine.description?) ++
        (tagSections ls).flatMap TagSection.descriptionLines)
  tags := b.tags ++ (tagSections ls).map TagSection.tag
  usage :=
    ((lastUsage? ls).map TagSection.usageLines).or
      (if inUsage then b.usage.map (· ++ (untagged ls).filterMap SourceLine.content?)
      else b.usage)

/-- Whether a usage section is open behind the lines. -/
def endsInUsage (inUsage : Bool) : List PlacedLine → Bool
  | [] => inUsage
  | (.tag name _, _) :: ls => endsInUsage (name = "usage".toList) ls
  | _ :: ls => endsInUsage inUsage ls

theorem DocBlock.extend_nil (b : DocBlock) (inUsage : Bool) : b.extend inUsage [] = b := by
  cases inUsage <;> simp [DocBlock.extend, untagged, tagSections, lastUsage?]

theorem DocBlock.extend_separator (b : DocBlock) (inUsage : Bool) (n : ℕ)
    (ls : List PlacedLine) :
    b.extend inUsage ((.separator, n) :: ls) = (b.addText []).extend inUsage ls := by
  simp only [DocBlock.extend, DocBlock.addText, untagged_cons (l := .separator) rfl,
    tagSections_cons (l := .separator) rfl, lastUsage?_cons (l := .separator) rfl]
  cases inUsage <;>
    simp [List.filterMap_cons, SourceLine.break?, SourceLine.description?,
      SourceLine.content?]

theorem DocBlock.extend_text (b : DocBlock) (content : Text) (n : ℕ)
    (ls : List PlacedLine) :
    b.extend false ((.text content, n) :: ls) = (b.addText content).extend false ls := by
  simp only [DocBlock.extend, DocBlock.addText, untagged_cons (l := .text content) rfl,
    tagSections_cons (l := .text content) rfl, lastUsage?_cons (l := .text content) rfl]
  simp [SourceLine.description?]

theorem DocBlock.extend_usage {b : DocBlock} (hb : b.usage.isSome) (content : Text) (n : ℕ)
    (ls : List PlacedLine) :
    b.extend true ((.text content, n) :: ls) = (b.addUsage content).extend true ls := by
  obtain ⟨usage, husage⟩ := Option.isSome_iff_exists.mp hb
  simp only [DocBlock.extend, DocBlock.addUsage, untagged_cons (l := .text content) rfl,
    tagSections_cons (l := .text content) rfl, lastUsage?_cons (l := .text content) rfl]
  simp [SourceLine.break?, SourceLine.content?, husage]

theorem DocBlock.extend_tag (b : DocBlock) (inUsage : Bool) (name operand : Text) (n : ℕ)
    (ls : List PlacedLine) :
    b.extend inUsage ((.tag name operand, n) :: ls) =
      ((if name = "usage".toList then b.openUsage operand else b).addTag
        ⟨n, name, operand⟩).extend (name = "usage".toList) ls := by
  simp only [DocBlock.extend, untagged_tag, lastUsage?_tag, tagSections]
  by_cases hname : name = "usage".toList
  · subst hname
    cases lastUsage? ls <;> cases inUsage <;>
      simp [DocBlock.addTag, DocBlock.openUsage, TagSection.descriptionLines,
        TagSection.isUsage, TagSection.usageLines]
  · cases inUsage <;>
      simp [-String.reduceToList, DocBlock.addTag, TagSection.descriptionLines,
        TagSection.isUsage, hname]

namespace Reading

/-- A line of the open block is added to it, and usage lines come only behind a usage tag. -/
theorem readLine_inner {r : Reading} {b : DocBlock} (hblock : r.block = some b)
    (husage : r.inUsage → b.usage.isSome) {l : PlacedLine} (hl : l.1.isInner) :
    ∃ (b' : DocBlock) (inUsage : Bool),
      r.readLine l = .ok { r with block := some b', inUsage } ∧
        (inUsage → b'.usage.isSome) ∧
        ∀ ls, b.extend r.inUsage (l :: ls) = b'.extend inUsage ls ∧
          endsInUsage r.inUsage (l :: ls) = endsInUsage inUsage ls := by
  obtain ⟨l, n⟩ := l
  cases l with
  | gap => cases hl
  | code line => cases hl
  | separator =>
      refine ⟨b.addText [], r.inUsage, ?_, husage, fun ls => ⟨?_, rfl⟩⟩
      · simp [readLine, hblock]
      · exact DocBlock.extend_separator b r.inUsage n ls
  | text content =>
      cases hmode : r.inUsage with
      | false =>
          refine ⟨b.addText content, false, ?_, by simp, fun ls => ⟨?_, rfl⟩⟩
          · simp [readLine, addContent, openBlock, hblock, hmode]
          · exact DocBlock.extend_text b content n ls
      | true =>
          refine ⟨b.addUsage content, true, ?_, by simp [DocBlock.addUsage],
            fun ls => ⟨?_, rfl⟩⟩
          · simp [readLine, addContent, openBlock, hblock, hmode]
          · exact DocBlock.extend_usage (husage hmode) content n ls
  | tag name operand =>
      refine ⟨(if name = "usage".toList then b.openUsage operand else b).addTag
          ⟨n, name, operand⟩, name = "usage".toList, ?_, ?_, fun ls => ⟨?_, rfl⟩⟩
      · have hopen : r.openBlock n = b := by simp [openBlock, hblock]
        unfold readLine addTag
        rw [hopen]
      · intro hmode
        have hname : name = "usage".toList := of_decide_eq_true hmode
        rw [if_pos hname]
        rfl
      · exact DocBlock.extend_tag b r.inUsage name operand n ls

theorem foldlM_inner {r : Reading} {b : DocBlock} (hblock : r.block = some b)
    (husage : r.inUsage → b.usage.isSome) {ls : List PlacedLine}
    (hinner : ∀ l ∈ ls, l.1.isInner) :
    ls.foldlM readLine r =
      .ok { r with
        block := some (b.extend r.inUsage ls), inUsage := endsInUsage r.inUsage ls } := by
  induction ls generalizing r b with
  | nil =>
      rw [DocBlock.extend_nil, endsInUsage, ← hblock]
      rfl
  | cons l ls ih =>
      rw [List.forall_mem_cons] at hinner
      obtain ⟨b', inUsage, hread, husage', hextend⟩ :=
        readLine_inner hblock husage hinner.1
      rw [List.foldlM_cons, hread, (hextend ls).1, (hextend ls).2]
      exact ih rfl husage' hinner.2

/-- The lines of a block, read from outside any block, make the block that they are. -/
theorem foldlM_block {r : Reading} (hr : r.Outside) {l : PlacedLine} (hdoc : l.1.isDoc)
    {ls : List PlacedLine} (hinner : ∀ l ∈ ls, l.1.isInner) :
    ∃ inUsage, (l :: ls).foldlM readLine r =
      .ok { r with block := some (blockOf (l :: ls)), inUsage } := by
  have hall : ∀ l' ∈ l :: ls, l'.1.isInner :=
    List.forall_mem_cons.mpr ⟨isInner_of_isDoc hdoc, hinner⟩
  refine ⟨endsInUsage false (l :: ls), ?_⟩
  have hrun := foldlM_inner (r := { r with block := some { firstLine := l.2 } }) rfl
    (by simp [hr.2]) hall
  have hblock : ({ firstLine := l.2 } : DocBlock).extend false (l :: ls) =
      blockOf (l :: ls) := by
    simp [DocBlock.extend, blockOf]
  rw [List.foldlM_cons] at hrun ⊢
  rw [readLine_first hr.1 hdoc, hrun, hr.2, hblock]

end Reading

/-! ## The two readings -/

theorem not_isCode_of_isInner {l : SourceLine} (h : l.isInner) : l.isCode = false := by
  cases l <;> first | rfl | cases h

namespace Reading

theorem finish_outside {r : Reading} (hr : r.Outside) (name : Text) :
    r.finish name = r.conclude name := by
  rw [finish, close, hr.1]
  rfl

theorem finish_block {r : Reading} {b : DocBlock} (hr : r.block = some b) (name : Text) :
    r.finish name =
      ({ r with block := none, inUsage := false } : Reading).attach b .other >>=
        fun r => r.conclude name := by
  rw [finish, close, hr]
  rfl

theorem any_isCode_eq_false {ls : List PlacedLine} (h : ∀ l ∈ ls, l.1.isInner) :
    ls.any (·.1.isCode) = false := by
  rw [List.any_eq_false]
  intro l hl
  simp [not_isCode_of_isInner (h l hl)]

/-- The reading in which the lines of a block have been read. -/
def inBlock (r : Reading) (before lines : List PlacedLine) (inUsage : Bool) : Reading :=
  { r with
    block := some (blockOf lines), inUsage, sawCode := before.any (·.1.isCode) }

theorem attach_inBlock {r : Reading} (hr : r.Outside) {before lines : List PlacedLine}
    (hlines : ∀ l ∈ lines, l.1.isInner) (next? : Option SourceLine) (inUsage : Bool) :
    ({ r.inBlock before lines inUsage with block := none, inUsage := false } :
        Reading).attach (blockOf lines) ((next?.map SourceLine.declaration).getD .other) =
      PlacedBlock.attach r ⟨before, lines, next?⟩ := by
  obtain ⟨doc, moduleName, described, owners, block, inUsage', sawCode⟩ := r
  obtain ⟨hblock, husage⟩ := hr
  simp only at hblock husage
  subst hblock husage
  simp [inBlock, PlacedBlock.attach, PlacedBlock.sawCode, PlacedBlock.declaration,
    any_isCode_eq_false hlines]

theorem finish_inBlock {r : Reading} (hr : r.Outside) {before lines : List PlacedLine}
    (hlines : ∀ l ∈ lines, l.1.isInner) (inUsage : Bool) (name : Text) :
    (r.inBlock before lines inUsage).finish name =
      PlacedBlock.attach r ⟨before, lines, none⟩ >>= fun r => r.conclude name := by
  rw [finish_block rfl, ← attach_inBlock hr hlines none inUsage]
  rfl

theorem readLine_inBlock {r : Reading} (hr : r.Outside) {before lines : List PlacedLine}
    (hlines : ∀ l ∈ lines, l.1.isInner) (inUsage : Bool) {l : PlacedLine}
    (hl : l.1.isInner = false) :
    (r.inBlock before lines inUsage).readLine l =
      PlacedBlock.attach r ⟨before, lines, some l.1⟩ >>= fun r => r.readLine l := by
  rw [readLine_close rfl hl, ← attach_inBlock hr hlines (some l.1) inUsage]
  rfl

theorem outside_of_attach {r r' : Reading} {b : PlacedBlock} (hr : r.Outside)
    (h : PlacedBlock.attach r b = .ok r') :
    r'.Outside ∧ r'.sawCode = b.sawCode := by
  have hplace := samePlace_attach h
  exact ⟨⟨hplace.1.trans hr.1, hplace.2.1.trans hr.2⟩, hplace.2.2⟩

/-- The lines that are left are read alike, whether line by line or in block form.  The
reading in block form knows nothing of the code seen so far. -/
theorem foldlM_readLine_eq {r : Reading} (hr : r.Outside) (name : Text)
    (before ls : List PlacedLine) :
    (ls.foldlM readLine { r with sawCode := before.any (·.1.isCode) } >>=
        fun r => r.finish name) =
      ((cutBlocks before ls).foldlM PlacedBlock.attach r >>= fun r => r.conclude name) := by
  fun_induction cutBlocks before ls generalizing r with
  | case1 before =>
      have hout : ({ r with sawCode := before.any (·.1.isCode) } : Reading).Outside := hr
      exact finish_outside hout name
  | case2 before l ls hdoc lines behind =>
      rename_i ih
      have htake : ∀ l' ∈ ls.takeWhile (·.1.isInner), l'.1.isInner :=
        fun l' hl' => by simpa using List.mem_takeWhile_imp hl'
      have hlines : ∀ l' ∈ lines, l'.1.isInner :=
        List.forall_mem_cons.mpr ⟨isInner_of_isDoc hdoc, htake⟩
      have hcut : l :: ls = lines ++ behind := by
        simp [lines, behind]
      obtain ⟨inUsage, hrun⟩ := foldlM_block
        (r := { r with sawCode := before.any (·.1.isCode) }) hr hdoc htake
      change lines.foldlM readLine _ = .ok (r.inBlock before lines inUsage) at hrun
      rw [hcut, List.foldlM_append, hrun, ok_bind, List.foldlM_cons]
      cases hbehind : behind with
      | nil =>
          rw [cutBlocks.eq_def]
          change Reading.finish _ name = (PlacedBlock.attach r _ >>= pure) >>= _
          rw [bind_pure, finish_inBlock hr hlines]
          rfl
      | cons x tail =>
          have hx : x.1.isInner = false := by
            have h := List.head?_dropWhile_not (fun l : PlacedLine => l.1.isInner) ls
            rw [show ls.dropWhile (fun l : PlacedLine => l.1.isInner) = x :: tail from hbehind]
              at h
            exact h
          rw [List.foldlM_cons, readLine_inBlock hr hlines inUsage hx]
          change ((PlacedBlock.attach r ⟨before, lines, some x.1⟩ >>= _) >>= _) >>= _ =
            (PlacedBlock.attach r ⟨before, lines, some x.1⟩ >>= _) >>= _
          cases hattach : PlacedBlock.attach r ⟨before, lines, some x.1⟩ with
          | error e => rfl
          | ok r' =>
              obtain ⟨hout, hcode⟩ := outside_of_attach hr hattach
              have h := ih hout
              have hsame : (before ++ lines).any (·.1.isCode) = r'.sawCode := hcode.symm
              rw [hsame, hbehind, List.foldlM_cons] at h
              exact h
  | case3 before l ls hdoc ih =>
      have hout : ({ r with sawCode := before.any (·.1.isCode) } : Reading).Outside := hr
      have h := ih hr
      rw [List.any_append] at h
      rw [List.foldlM_cons, readLine_outside hout (by simpa using hdoc)]
      simpa using h

theorem foldlM_readLine_initial (name : Text) (ls : List PlacedLine) :
    (ls.foldlM readLine {} >>= fun r => r.finish name) = readBlocks name ls :=
  foldlM_readLine_eq (r := {}) ⟨rfl, rfl⟩ name [] ls

end Reading

theorem readSource_eq_readBlocks (name source : Text) :
    readSource name source = readBlocks name (placedLines source) := by
  rw [readSource, Reading.run_numberedLines]
  exact Reading.foldlM_readLine_initial name (placedLines source)

/-! ## Lines outside all blocks -/

theorem endInBlock_concat (ls : List PlacedLine) (l : PlacedLine) :
    EndInBlock (ls ++ [l]) ↔ l.1.isDoc ∨ l.1 = .separator ∧ EndInBlock ls := by
  unfold EndInBlock
  by_cases hl : l.1 = .separator
  · simp [hl, SourceLine.isDoc]
  · simp [hl]

namespace Reading

theorem outside_of_close {r r' : Reading} {d : Declaration} (h : r.close d = .ok r') :
    r'.Outside ∧ r'.sawCode = r.sawCode := by
  unfold close at h
  cases hblock : r.block with
  | none =>
      rw [hblock] at h
      cases h
      exact ⟨⟨rfl, rfl⟩, rfl⟩
  | some b =>
      rw [hblock] at h
      have hplace := samePlace_attach h
      exact ⟨⟨hplace.1, hplace.2.1⟩, hplace.2.2⟩

theorem outside_of_readLine {r r' : Reading} {l : PlacedLine} (hl : l.1.isInner = false)
    (h : r.readLine l = .ok r') :
    r'.Outside ∧ r'.sawCode = (r.sawCode || l.1.isCode) := by
  rw [readLine_outer r hl] at h
  obtain ⟨s, hclose, rfl⟩ := exists_of_map_ok h
  obtain ⟨hout, hcode⟩ := outside_of_close hclose
  exact ⟨hout, congrArg (· || l.1.isCode) hcode⟩

/-- A block or a usage section is open only behind a doc line and separators. -/
theorem outside_of_foldlM {ls : List PlacedLine} {r r' : Reading} (hr : r.Outside)
    (hls : ¬ EndInBlock ls) (h : ls.foldlM readLine r = .ok r') : r'.Outside := by
  induction ls using List.reverseRecOn generalizing r' with
  | nil =>
      cases h
      exact hr
  | append_singleton ls l ih =>
      rw [endInBlock_concat, not_or, not_and] at hls
      rw [List.foldlM_append] at h
      obtain ⟨s, hs, hstep⟩ := exists_of_bind_ok h
      have hread : s.readLine l = .ok r' := by simpa using hstep
      by_cases hseparator : l.1 = .separator
      · have hout := ih (hls.2 hseparator) hs
        rw [readLine_outside hout (by simp [hseparator, SourceLine.isDoc])] at hread
        cases hread
        exact hout
      · have hinner : l.1.isInner = false := by
          cases hl : l.1 <;> simp_all [SourceLine.isInner]
        exact (outside_of_readLine hinner hread).1

theorem sawCode_of_readLine {r r' : Reading} {l : PlacedLine} (h : r.readLine l = .ok r') :
    r'.sawCode = (r.sawCode || l.1.isCode) := by
  obtain ⟨l, n⟩ := l
  cases l with
  | gap => exact (outside_of_readLine rfl h).2
  | code line => exact (outside_of_readLine rfl h).2
  | separator =>
      cases h
      simp [SourceLine.isCode]
  | tag name operand =>
      cases h
      simp [addTag, SourceLine.isCode]
  | text content =>
      cases h
      simp [addContent, SourceLine.isCode]

theorem sawCode_of_foldlM {ls : List PlacedLine} {r r' : Reading}
    (h : ls.foldlM readLine r = .ok r') :
    r'.sawCode = (r.sawCode || ls.any (·.1.isCode)) := by
  induction ls generalizing r with
  | nil =>
      cases h
      simp
  | cons l ls ih =>
      rw [List.foldlM_cons] at h
      obtain ⟨s, hs, hrest⟩ := exists_of_bind_ok h
      rw [ih hrest, sawCode_of_readLine hs, List.any_cons, Bool.or_assoc]

end Reading

theorem readBlocks_append (name : Text) (front back : List PlacedLine) :
    readBlocks name (front ++ back) =
      (front.foldlM Reading.readLine {} >>= fun r => back.foldlM Reading.readLine r) >>=
        fun r => r.finish name := by
  rw [← Reading.foldlM_readLine_initial, List.foldlM_append]

theorem readBlocks_outside {front : List PlacedLine} (hfront : ¬ EndInBlock front)
    {l : PlacedLine} (hl : l.1.isDoc = false) (name : Text) (back : List PlacedLine) :
    readBlocks name (front ++ l :: back) =
      (front.foldlM Reading.readLine {} >>= fun r =>
        back.foldlM Reading.readLine { r with sawCode := r.sawCode || l.1.isCode }) >>=
          fun r => r.finish name := by
  rw [readBlocks_append]
  cases hread : front.foldlM Reading.readLine {} with
  | error e => rfl
  | ok r =>
      have hout := Reading.outside_of_foldlM ⟨rfl, rfl⟩ hfront hread
      rw [ok_bind, ok_bind, List.foldlM_cons, Reading.readLine_outside hout hl, ok_bind]

/-- A line outside all blocks that brings no first code can be left out. -/
theorem readBlocks_omit {front : List PlacedLine} (hfront : ¬ EndInBlock front)
    {l : PlacedLine} (hl : l.1.isDoc = false)
    (hcode : l.1.isCode → front.any (·.1.isCode)) (name : Text) (back : List PlacedLine) :
    readBlocks name (front ++ l :: back) = readBlocks name (front ++ back) := by
  rw [readBlocks_outside hfront hl, readBlocks_append]
  cases hread : front.foldlM Reading.readLine {} with
  | error e => rfl
  | ok r =>
      have hsame : (r.sawCode || l.1.isCode) = r.sawCode := by
        have hsaw := Reading.sawCode_of_foldlM hread
        cases hl : l.1.isCode with
        | false => simp
        | true => simp [hsaw, hcode hl]
      rw [ok_bind, ok_bind, hsame]

/-- Reading line by line and reading in block form give the same module or the same
fault.  A line of code that does not directly follow a block tells only that there is
code, and a separator outside all blocks tells nothing. -/
theorem readAt_eq_readBlocks (path source : Text) :
    let name := (Path.fileStem? path).getD []
    readAt path source = readBlocks name (placedLines source) ∧
      ∀ front back n, ¬ EndInBlock front →
        (∀ line line', placedLines source = front ++ (.code line, n) :: back →
          readAt path source = readBlocks name (front ++ (.code line', n) :: back) ∧
            (front.any (·.1.isCode) →
              readAt path source = readBlocks name (front ++ back))) ∧
        (placedLines source = front ++ (.separator, n) :: back →
          readAt path source = readBlocks name (front ++ back)) := by
  intro name
  have hread : readAt path source = readBlocks name (placedLines source) :=
    readSource_eq_readBlocks name source
  refine ⟨hread, ?_⟩
  intro front back n hfront
  refine ⟨?_, ?_⟩
  · intro line line' hsource
    rw [hread, hsource]
    refine ⟨?_, fun hcode => readBlocks_omit hfront rfl (fun _ => hcode) name back⟩
    rw [readBlocks_outside hfront rfl, readBlocks_outside hfront rfl]
    rfl
  · intro hsource
    have hcode : SourceLine.separator.isCode → front.any (·.1.isCode) := by
      intro h
      cases h
    rw [hread, hsource]
    exact readBlocks_omit hfront (l := (.separator, n)) rfl hcode name back

/-- A source with two lines of code in front of its only block. -/
def counterSource : Text :=
  "local a = 1\nlocal b = 2\n--- Counts.\nfunction count(n) end\n".toList

theorem placedLines_counterSource :
    placedLines counterSource =
      [(.code "local a = 1".toList, 1)] ++ (.code "local b = 2".toList, 2) ::
        [(.text "Counts.".toList, 3), (.code "function count(n) end".toList, 4)] := by
  decide +kernel

theorem readAt_counterSource :
    let front : List PlacedLine := [(.code "local a = 1".toList, 1)]
    let back : List PlacedLine :=
      [(.text "Counts.".toList, 3), (.code "function count(n) end".toList, 4)]
    ¬ EndInBlock front ∧ front.any (·.1.isCode) ∧
      readAt "count.lua".toList counterSource =
        readBlocks "count".toList (front ++ (.code "return b".toList, 2) :: back) ∧
      readAt "count.lua".toList counterSource =
        readBlocks "count".toList (front ++ back) := by
  intro front back
  have hfront : ¬ EndInBlock front := by
    rintro ⟨l, hlast, hdoc⟩
    cases hlast
    cases hdoc
  have hname : (Path.fileStem? "count.lua".toList).getD [] = "count".toList := by
    decide +kernel
  obtain ⟨hreplace, homit⟩ :=
    ((readAt_eq_readBlocks "count.lua".toList counterSource).2 front back 2 hfront).1
      _ "return b".toList placedLines_counterSource
  rw [hname] at hreplace homit
  exact ⟨hfront, rfl, hreplace, homit rfl⟩

end DocComment
end ApiManual
