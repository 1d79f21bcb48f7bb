import ApiManual.Proofs.Page.Usage

/-!
# What links do not reach

Two pages of one module, laid out with two indexes, differ in paragraphs, in labels and in
table cells that carry links.  Their headings, usage samples and default values agree, and
their signatures agree wherever both indexes give the same display names, whatever the
links of either lead to.
-/

namespace ApiManual

namespace Markdown

def Block.isCode : Block → Bool
  | .code _ _ => true
  | _ => false

/-- The cells under a header. -/
def Block.column (header : Text) : Block → List Text
  | .table headers _ rows =>
    match headers.idxOf? header with
    | some i => rows.map fun row => row[i]?.getD []
    | none => []
  | _ => []

namespace Document

def headings (document : Document) : Document :=
  document.filter Block.isHeading

def codeBlocks (document : Document) : Document :=
  document.filter Block.isCode

/-- The code blocks at the end of a section, with the rule behind them. -/
def samples : Document → Document
  | .code language text :: .rule :: rest => .code language text :: samples rest
  | _ :: rest => samples rest
  | [] => []

def column (header : Text) (document : Document) : List Text :=
  document.flatMap (Block.column header)

end Document
end Markdown

/-! ## Display names -/

namespace Symbol

/-- The names of an index in order, each with what it shows. -/
def Index.displayNames (index : Index) : List (Text × Text) :=
  index.entries.map fun e => (e.symbol, e.display)

variable {i j : Index}

theorem substitute_plain_eq (index : Index) (text : Text) :
    index.substitute .plain text =
      index.displayNames.foldl (fun text (symbol, display) => Text.replace symbol display text)
        text := by
  rw [Index.displayNames, List.foldl_map]
  rfl

theorem substitute_plain_congr (h : i.displayNames = j.displayNames) :
    i.substitute .plain = j.substitute .plain := by
  funext text
  rw [substitute_plain_eq, h, ← substitute_plain_eq]

end Symbol

namespace Page

open ApiManual.Markdown ApiManual.Symbol

variable {i j : Index}

theorem typeText_congr {mode : LinkMode} (h : i.substitute mode = j.substitute mode)
    (type : LuaType) : typeText i mode type = typeText j mode type := by
  fun_induction typeText i mode type with
  | case1 => rw [typeText]
  | case2 => rw [typeText]
  | case3 => rw [typeText]
  | case4 name => rw [typeText, h]
  | case5 id => rw [typeText, h]
  | case6 args returns hargs hreturns =>
      rw [typeText, List.map_congr_left hargs, List.map_congr_left hreturns]

theorem signature_congr (h : i.displayNames = j.displayNames) (scope : Text) (f : FunctionDoc) :
    signature i scope f = signature j scope f := by
  have htypes : typeText i .plain = typeText j .plain :=
    funext (typeText_congr (substitute_plain_congr h))
  unfold signature signatureReturns
  rw [htypes]

/-! ## Pages that differ in links -/

def defaultHeader : Text := "Default value".toList

/-- Documents that differ in what links can reach.  A signature has a table below it, and a
sample has a rule. -/
inductive Alike (i j : Index) : Document → Document → Prop
  | nil : Alike i j [] []
  | heading (level : ℕ) (text : Text) {d d' : Document} (h : Alike i j d d') :
      Alike i j (.heading level text :: d) (.heading level text :: d')
  | rawLeft (text : Text) {d d' : Document} (h : Alike i j d d') : Alike i j (.raw text :: d) d'
  | rawRight (text : Text) {d d' : Document} (h : Alike i j d d') : Alike i j d (.raw text :: d')
  | bold (text text' : Text) {d d' : Document} (h : Alike i j d d') :
      Alike i j (.bold text :: d) (.bold text' :: d')
  | table {headers : List Text} {align : List Align} {rows rows' : List (List Text)}
      (hcolumn : (Block.table headers align rows).column defaultHeader =
        (Block.table headers align rows').column defaultHeader)
      {d d' : Document} (h : Alike i j d d') :
      Alike i j (.table headers align rows :: d) (.table headers align rows' :: d')
  | signature {language text text' : Text} (htext : i.displayNames = j.displayNames → text = text')
      {headers : List Text} {align : List Align} {rows rows' : List (List Text)} {d d' : Document}
      (h : Alike i j (.table headers align rows :: d) (.table headers align rows' :: d')) :
      Alike i j (.code language text :: .table headers align rows :: d)
        (.code language text' :: .table headers align rows' :: d')
  | sample (language text : Text) {d d' : Document} (h : Alike i j d d') :
      Alike i j (.code language text :: .rule :: d) (.code language text :: .rule :: d')
  | rule {d d' : Document} (h : Alike i j d d') : Alike i j (.rule :: d) (.rule :: d')

namespace Alike

variable {d d' : Document}

theorem append (h : Alike i j d d') {b b' : Document} (hb : Alike i j b b') :
    Alike i j (d ++ b) (d' ++ b') := by
  induction h with
  | nil => exact hb
  | heading level text _ ih => exact .heading level text ih
  | rawLeft text _ ih => exact .rawLeft text ih
  | rawRight text _ ih => exact .rawRight text ih
  | bold text text' _ ih => exact .bold text text' ih
  | table hcolumn _ ih => exact .table hcolumn ih
  | signature htext _ ih => exact .signature htext ih
  | sample language text _ ih => exact .sample language text ih
  | rule _ ih => exact .rule ih

theorem headings_eq (h : Alike i j d d') : d.headings = d'.headings := by
  induction h with
  | nil => rfl
  | heading level text _ ih => exact congrArg (Block.heading level text :: ·) ih
  | rawLeft _ _ ih | rawRight _ _ ih | bold _ _ _ ih | table _ _ ih | signature _ _ ih
  | sample _ _ _ ih | rule _ ih => exact ih

theorem column_eq (h : Alike i j d d') : d.column defaultHeader = d'.column defaultHeader := by
  induction h with
  | nil => rfl
  | table hcolumn _ ih => exact congrArg₂ (· ++ ·) hcolumn ih
  | heading _ _ _ ih | rawLeft _ _ ih | rawRight _ _ ih | bold _ _ _ ih | signature _ _ ih
  | sample _ _ _ ih | rule _ ih => exact ih

theorem codeBlocks_eq (h : Alike i j d d') (hnames : i.displayNames = j.displayNames) :
    d.codeBlocks = d'.codeBlocks := by
  induction h with
  | nil => rfl
  | @signature language _ _ htext _ _ _ _ _ _ _ ih =>
      exact congrArg₂ (fun text d => Block.code language text :: d) (htext hnames) ih
  | sample language text _ ih => exact congrArg (Block.code language text :: ·) ih
  | heading _ _ _ ih | rawLeft _ _ ih | rawRight _ _ ih | bold _ _ _ ih | table _ _ ih
  | rule _ ih => exact ih

theorem flatMap {α : Type} (shown : List α) {part part' : α → Document}
    (h : ∀ a, Alike i j (part a) (part' a)) :
    Alike i j (shown.flatMap part) (shown.flatMap part') := by
  induction shown with
  | nil => exact .nil
  | cons a shown ih => exact (h a).append ih

/-- A section with a heading of its own and a part for each thing that it shows. -/
theorem headed {α : Type} (shown : List α) (level : ℕ) (text : Text) {part part' : α → Document}
    (h : ∀ a, Alike i j (part a) (part' a)) :
    Alike i j (if shown.isEmpty then [] else .heading level text :: shown.flatMap part)
      (if shown.isEmpty then [] else .heading level text :: shown.flatMap part') := by
  split
  · exact .nil
  · exact .heading level text (flatMap shown h)

end Alike

/-! ## Sections -/

theorem alike_paragraph (text text' : Text) : Alike i j (paragraph text) (paragraph text') := by
  have hleft : Alike i j (paragraph text) [] := by
    simp only [paragraph]
    split
    · exact .nil
    · exact .rawLeft _ .nil
  have hright : Alike i j [] (paragraph text') := by
    simp only [paragraph]
    split
    · exact .nil
    · exact .rawRight _ .nil
  have hboth := hleft.append hright
  rwa [List.append_nil, List.nil_append] at hboth

theorem alike_descriptions (summary details : Text) :
    Alike i j (linked i summary ++ linked i details) (linked j summary ++ linked j details) :=
  (alike_paragraph _ _).append (alike_paragraph _ _)

theorem column_paramTable (index : Index) (params : List ParamDoc) :
    (paramTable index params).column defaultHeader = params.map (·.defaultValue.getD []) := by
  have hindex : ["Parameter".toList, "Type".toList, "Description".toList,
      "Default value".toList].idxOf? defaultHeader = some 3 := by decide
  simp only [paramTable, Block.column, hindex, List.map_map]
  rfl

theorem column_returnTable (index : Index) (returns : List ReturnDoc) :
    (returnTable index returns).column defaultHeader = [] := by
  have hindex : ["Type".toList, "Description".toList].idxOf? defaultHeader = none := by decide
  simp only [returnTable, Block.column, hindex]

theorem column_memberTable (index : Index) (members : List FieldDoc) :
    (memberTable index members).column defaultHeader = [] := by
  have hindex : ["Member".toList, "Description".toList].idxOf? defaultHeader = none := by decide
  simp only [memberTable, Block.column, hindex]

theorem alike_returns (returns : List ReturnDoc) :
    Alike i j (if returns.isEmpty then [] else [returnTable i returns])
      (if returns.isEmpty then [] else [returnTable j returns]) := by
  split
  · exact .nil
  · exact .table ((column_returnTable i returns).trans (column_returnTable j returns).symm) .nil

theorem alike_notes (details : Text) :
    Alike i j (if details.isEmpty then [] else title i "Notes".toList :: linked i details)
      (if details.isEmpty then [] else title j "Notes".toList :: linked j details) := by
  split
  · exact .nil
  · exact .bold _ _ (alike_paragraph _ _)

theorem alike_usage (usage : Option Text) :
    Alike i j
      ((match usage with
        | none => []
        | some usage => [title i "Usage".toList, luaCode usage]) ++ [.rule])
      ((match usage with
        | none => []
        | some usage => [title j "Usage".toList, luaCode usage]) ++ [.rule]) := by
  cases usage with
  | none => exact .rule .nil
  | some usage => exact .bold _ _ (.sample _ usage .nil)

theorem alike_functionSection (scope : Text) (level : ℕ) (f : FunctionDoc) :
    Alike i j (functionSection i scope level f) (functionSection j scope level f) := by
  have htable : Alike i j [paramTable i f.params] [paramTable j f.params] :=
    .table ((column_paramTable i f.params).trans (column_paramTable j f.params).symm) .nil
  have hsignature : Alike i j [luaCode (signature i scope f), paramTable i f.params]
      [luaCode (signature j scope f), paramTable j f.params] :=
    .signature (fun hnames => signature_congr hnames scope f) htable
  have hheading : Alike i j
      [.heading level (f.name ++ "()".toList), title i "Signature".toList]
      [.heading level (f.name ++ "()".toList), title j "Signature".toList] :=
    .heading _ _ (.bold _ _ .nil)
  have hsummary : Alike i j (linked i f.summary) (linked j f.summary) := alike_paragraph _ _
  have hsection := ((((hheading.append hsummary).append hsignature).append
    (alike_returns f.returns)).append (alike_notes f.details)).append (alike_usage f.usage)
  unfold functionSection
  rw [List.append_assoc _ _ [Block.rule], List.append_assoc _ _ [Block.rule]]
  exact hsection

theorem codeBlocks_linked (index : Index) (text : Text) : (linked index text).codeBlocks = [] := by
  simp only [linked, paragraph]
  split <;> rfl

theorem codeBlocks_functionSection (index : Index) (scope : Text) (level : ℕ) (f : FunctionDoc) :
    (functionSection index scope level f).codeBlocks =
      luaCode (signature index scope f) :: (f.usage.map luaCode).toList := by
  have hsummary := codeBlocks_linked index f.summary
  have hdetails := codeBlocks_linked index f.details
  unfold Document.codeBlocks at hsummary hdetails ⊢
  unfold functionSection
  cases f.usage <;> cases f.returns.isEmpty <;> cases f.details.isEmpty <;>
    simp [List.filter_append, List.filter_cons, hsummary, hdetails, title, luaCode, paramTable,
      returnTable, Block.isCode]

theorem alike_functionSections (scope : Text) (level : ℕ) (functions : List FunctionDoc) :
    Alike i j (functionSections i scope level functions)
      (functionSections j scope level functions) :=
  .headed _ _ _ fun f => alike_functionSection scope (level + 1) f

theorem alike_fieldSection (level : ℕ) (fields : List FieldDoc) :
    Alike i j (fieldSection i level fields) (fieldSection j level fields) := by
  simp only [fieldSection]
  split
  · exact .nil
  · exact .heading _ _ (alike_paragraph _ _)

theorem alike_enumSection (level : ℕ) (c : ClassDoc) :
    Alike i j (enumSection i level c) (enumSection j level c) := by
  have htable : Alike i j [memberTable i c.fields] [memberTable j c.fields] :=
    .table ((column_memberTable i c.fields).trans (column_memberTable j c.fields).symm) .nil
  exact .heading level c.name ((alike_descriptions _ _).append htable)

theorem alike_classSection (level : ℕ) (heading summary details : Text) (c : ClassDoc) :
    Alike i j (classSection i level heading summary details c)
      (classSection j level heading summary details c) :=
  .heading level heading (((alike_descriptions _ _).append (alike_fieldSection _ _)).append
    (alike_functionSections _ _ _))

theorem alike_plainModulePage (m : ModuleDoc) :
    Alike i j (plainModulePage i m) (plainModulePage j m) := by
  have henums : Alike i j (enumSections i m.classes) (enumSections j m.classes) :=
    .headed _ _ _ fun c => alike_enumSection 3 c
  have hclasses : Alike i j (classSections i m.classes) (classSections j m.classes) :=
    .headed _ _ _ fun c => alike_classSection 3 c.name c.summary c.details c
  exact .heading 1 m.name (((((alike_descriptions _ _).append (.rule .nil)).append henums).append
    (alike_functionSections _ _ _)).append hclasses)

theorem alike_ofModule (i j : Index) (m : ModuleDoc) :
    Alike i j (ofModule i m) (ofModule j m) := by
  unfold ofModule
  split
  · exact alike_classSection _ _ _ _ _
  · exact alike_plainModulePage m

/-! ## Samples -/

/-- These usages are the samples in a part of a page, whatever stands behind it. -/
def HasSamples (part : Document) (usages : List Text) : Prop :=
  ∀ rest, (part ++ rest).samples = usages.map luaCode ++ rest.samples

section
variable {s t : Document} {us vs : List Text}

theorem hasSamples_nil : HasSamples [] [] := fun _ => rfl

theorem HasSamples.cons {b : Block} (hb : b.isCode = false) (h : HasSamples s us) :
    HasSamples (b :: s) us := by
  intro rest
  rw [List.cons_append, ← h rest]
  cases b <;> first | rfl | cases hb

theorem HasSamples.append (hs : HasSamples s us) (ht : HasSamples t vs) :
    HasSamples (s ++ t) (us ++ vs) := by
  intro rest
  rw [List.append_assoc, hs, ht, List.map_append, List.append_assoc]

theorem HasSamples.flatMap {α : Type} (shown : List α) {part : α → Document}
    {usages : α → List Text} (h : ∀ a, HasSamples (part a) (usages a)) :
    HasSamples (shown.flatMap part) (shown.flatMap usages) := by
  induction shown with
  | nil => exact hasSamples_nil
  | cons a shown ih => exact (h a).append ih

/-- A section with a heading of its own and a part for each thing that it shows. -/
theorem HasSamples.headed {α : Type} (shown : List α) (level : ℕ) (text : Text)
    {part : α → Document} {usages : α → List Text} (h : ∀ a, HasSamples (part a) (usages a)) :
    HasSamples (if shown.isEmpty then [] else .heading level text :: shown.flatMap part)
      (shown.flatMap usages) := by
  split
  · rename_i hempty
    rw [List.isEmpty_iff.mp hempty]
    exact hasSamples_nil
  · exact .cons rfl (.flatMap shown h)

end

theorem hasSamples_paragraph (text : Text) : HasSamples (paragraph text) [] := by
  simp only [paragraph]
  split
  · exact hasSamples_nil
  · exact .cons rfl hasSamples_nil

theorem hasSamples_descriptions (index : Index) (summary details : Text) :
    HasSamples (linked index summary ++ linked index details) [] :=
  (hasSamples_paragraph _).append (hasSamples_paragraph _)

/-- Only the usage of a function is a sample, and its signature is none. -/
theorem hasSamples_functionSection (index : Index) (scope : Text) (level : ℕ) (f : FunctionDoc) :
    HasSamples (functionSection index scope level f) f.usage.toList := by
  have hheading : HasSamples [.heading level (f.name ++ "()".toList),
      title index "Signature".toList] [] := .cons rfl (.cons rfl hasSamples_nil)
  have hsignature : HasSamples [luaCode (signature index scope f), paramTable index f.params] [] :=
    fun _ => rfl
  have hreturns : HasSamples (if f.returns.isEmpty then [] else [returnTable index f.returns])
      [] := by
    split
    · exact hasSamples_nil
    · exact .cons rfl hasSamples_nil
  have hnotes : HasSamples (if f.details.isEmpty then [] else
      title index "Notes".toList :: linked index f.details) [] := by
    split
    · exact hasSamples_nil
    · exact .cons rfl (hasSamples_paragraph _)
  have husage : HasSamples ((match f.usage with
      | none => []
      | some usage => [title index "Usage".toList, luaCode usage]) ++ [.rule])
      f.usage.toList := by
    cases f.usage with
    | none => exact .cons rfl hasSamples_nil
    | some usage => exact fun _ => rfl
  unfold functionSection
  rw [List.append_assoc _ _ [Block.rule]]
  exact ((((hheading.append (hasSamples_paragraph _)).append hsignature).append hreturns).append
    hnotes).append husage

theorem hasSamples_functionSections (index : Index) (scope : Text) (level : ℕ)
    (functions : List FunctionDoc) :
    HasSamples (functionSections index scope level functions)
      ((functions.filter (!·.isPrivate)).flatMap (·.usage.toList)) :=
  .headed _ _ _ fun f => hasSamples_functionSection index scope (level + 1) f

theorem hasSamples_fieldSection (index : Index) (level : ℕ) (fields : List FieldDoc) :
    HasSamples (fieldSection index level fields) [] := by
  simp only [fieldSection]
  split
  · exact hasSamples_nil
  · exact .cons rfl (hasSamples_paragraph _)

theorem hasSamples_enumSection (index : Index) (level : ℕ) (c : ClassDoc) :
    HasSamples (enumSection index level c) [] := by
  have htable : HasSamples [memberTable index c.fields] [] := .cons rfl hasSamples_nil
  exact .cons rfl ((hasSamples_descriptions index _ _).append htable)

theorem hasSamples_classSection (index : Index) (level : ℕ) (heading summary details : Text)
    (c : ClassDoc) :
    HasSamples (classSection index level heading summary details c)
      ((c.methods.filter (!·.isPrivate)).flatMap (·.usage.toList)) :=
  .cons rfl (((hasSamples_descriptions index _ _).append (hasSamples_fieldSection index _ _)).append
    (hasSamples_functionSections index _ _ _))

/-- The samples of a page are the usages of the functions that it shows, in their order. -/
theorem samples_ofModule (index : Index) (m : ModuleDoc) :
    (ofModule index m).samples = (m.shownFunctions.filterMap (·.usage)).map luaCode := by
  have hpage : HasSamples (ofModule index m) (m.shownFunctions.flatMap (·.usage.toList)) := by
    unfold ofModule ModuleDoc.shownFunctions
    cases m.primaryClass? with
    | some c => exact hasSamples_classSection index 1 m.name _ _ c
    | none =>
        have hhead : HasSamples (.heading 1 m.name ::
            (linked index m.summary ++ linked index m.details ++ [.rule])) [] :=
          .cons rfl ((hasSamples_descriptions index _ _).append (.cons rfl hasSamples_nil))
        have henums : HasSamples (enumSections index m.classes)
            ((m.classes.filter (·.isEnum)).flatMap fun _ => []) :=
          .headed _ _ _ fun c => hasSamples_enumSection index 3 c
        rw [List.flatMap_eq_nil_iff.mpr fun _ _ => rfl] at henums
        have hclasses : HasSamples (classSections index m.classes)
            ((m.classes.filter (!·.isEnum)).flatMap fun c =>
              (c.methods.filter (!·.isPrivate)).flatMap (·.usage.toList)) :=
          .headed _ _ _ fun c => hasSamples_classSection index 3 c.name c.summary c.details c
        have hplain := ((hhead.append henums).append
          (hasSamples_functionSections index [] 2 m.functions)).append hclasses
        simpa [plainModulePage, List.filter_flatMap, List.flatMap_assoc] using hplain
  rw [List.filterMap_eq_flatMap_toList, ← List.append_nil (ofModule index m), hpage]
  exact List.append_nil _

/-- Whatever the index, a page has the same headings and default values, and its samples are
the usages of the functions that it shows.  Its code blocks, signatures among them, depend on
display names only and not on where links lead. -/
theorem shielded_ofModule (m : ModuleDoc) (i j : Index) :
    (ofModule i m).headings = (ofModule j m).headings ∧
      (ofModule i m).samples = (ofModule j m).samples ∧
      (ofModule i m).samples = (m.shownFunctions.filterMap (·.usage)).map luaCode ∧
      (ofModule i m).column defaultHeader = (ofModule j m).column defaultHeader ∧
      (i.displayNames = j.displayNames → (ofModule i m).codeBlocks = (ofModule j m).codeBlocks) :=
  have halike := alike_ofModule i j m
  have hsamples := (samples_ofModule i m).trans (samples_ofModule j m).symm
  ⟨halike.headings_eq, hsamples, samples_ofModule i m, halike.column_eq, halike.codeBlocks_eq⟩

def eventCallback : LuaType :=
  .callable [.named "ui.Event".toList] [.callable [.named "ui.Event".toList] []]

def onEvent : FunctionDoc where
  name := "on".toList
  summary := "Waits for ui.Event.".toList
  params := [{
    name := "done".toList
    type := eventCallback
    defaultValue := some "ui.Event.print".toList }]
  usage := some "ui.on(ui.Event.print)".toList

def eventModule : ModuleDoc where
  name := "ui".toList
  functions := [onEvent]

def eventIndex (anchor : String) : Index :=
  ⟨[⟨"ui.Event".toList, "Event".toList, anchor.toList⟩]⟩

theorem shielded_eventPage :
    let i := eventIndex "/api/core/#event"
    let j := eventIndex "/api/spare/#event"
    i.displayNames = j.displayNames ∧ text i eventModule ≠ text j eventModule ∧
      (ofModule i eventModule).headings = (ofModule j eventModule).headings ∧
      (ofModule i eventModule).samples = (ofModule j eventModule).samples ∧
      (ofModule i eventModule).samples = [luaCode "ui.on(ui.Event.print)".toList] ∧
      (ofModule i eventModule).column defaultHeader =
        (ofModule j eventModule).column defaultHeader ∧
      (ofModule i eventModule).codeBlocks = (ofModule j eventModule).codeBlocks ∧
      (ofModule i eventModule).codeBlocks =
        [luaCode "function on(done: function(Event):function(Event):()) -> nil".toList,
          luaCode "ui.on(ui.Event.print)".toList] := by
  intro i j
  have hcallback : typeText i .plain eventCallback =
      "function(Event):function(Event):()".toList := by
    simp only [eventCallback, typeText, List.map_cons, List.map_nil]
    decide
  have hsignature : signature i [] onEvent =
      "function on(done: function(Event):function(Event):()) -> nil".toList := by
    unfold signature signatureReturns
    simp [onEvent, hcallback, Text.join]
  have hblocks : (ofModule i eventModule).codeBlocks =
      [luaCode (signature i [] onEvent), luaCode "ui.on(ui.Event.print)".toList] := by
    have hpage : ofModule i eventModule =
        [.heading 1 "ui".toList, .rule, .heading 2 "Methods".toList] ++
          functionSection i [] 3 onEvent := by
      rfl
    rw [hpage, Document.codeBlocks, List.filter_append]
    exact codeBlocks_functionSection i [] 3 onEvent
  have hnames : i.displayNames = j.displayNames := by decide
  have hlinks : text i eventModule ≠ text j eventModule := by decide
  obtain ⟨hheadings, hsamples, husages, hdefaults, hcode⟩ := shielded_ofModule eventModule i j
  exact ⟨hnames, hlinks, hheadings, hsamples, husages, hdefaults, hcode hnames,
    hsignature ▸ hblocks⟩

end Page
end ApiManual
