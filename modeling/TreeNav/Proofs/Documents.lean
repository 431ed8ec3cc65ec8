import Mathlib.Data.List.Forall2
import TreeNav.Proofs.Statements

/-!
Documents of assignments and one table of tables are read back as they were written. The text
is made of parts with blank lines between them: the assignments of the document, and one part
with a header for each table. Reading it, every statement adds to what was opened last.
-/
namespace TreeNav.Toml

/-- A document with plain values of its own, and tables of plain values in a table under a
title. -/
structure Layout where
  root : Entries
  title : String
  sections : List (String × Entries)
  rootPlain : ∀ e ∈ root, e.2.Plain
  sectionsPlain : ∀ s ∈ sections, ∀ e ∈ s.2, e.2.Plain
  rootKeys : (root.map Prod.fst).Nodup
  titleFresh : title ∉ root.map Prod.fst
  sectionKeys : (sections.map Prod.fst).Nodup
  fieldKeys : ∀ s ∈ sections, (s.2.map Prod.fst).Nodup

namespace Layout

/-- The tables under the title. -/
def tables (d : Layout) : Entries := d.sections.map fun s => (s.1, .table s.2)

/-- The document. Without any tables there is no title either. -/
def entries (d : Layout) : Entries :=
  d.root ++ if d.sections.isEmpty then [] else [(d.title, .table d.tables)]

end Layout

/-- The statements of a table of plain values. -/
def assignmentsOf (entries : Entries) : List Statement :=
  entries.map fun e => .assign ⟨[], e.1⟩ e.2

namespace Layout

/-- The statements of a table under the title. -/
def sectionStatements (d : Layout) (s : String × Entries) : List Statement :=
  .header ⟨[d.title], s.1⟩ :: assignmentsOf s.2

/-- The statements of the document. -/
def statements (d : Layout) : List Statement :=
  assignmentsOf d.root ++ d.sections.flatMap d.sectionStatements

/-- The text of a table under the title. -/
def sectionText (d : Layout) (s : String × Entries) : List Char :=
  headerText ⟨[d.title], s.1⟩ ++ ['\n'] ++ renderAssignments s.2

/-- The parts of the text. -/
def parts (d : Layout) : List (List Char) :=
  (if d.root.isEmpty then [] else [renderAssignments d.root]) ++ d.sections.map d.sectionText

end Layout

section Parts

theorem subtableParts_append (path : List String) (entries others : Entries) :
    subtableParts path (entries ++ others) =
      subtableParts path entries ++ subtableParts path others := by
  induction entries with
  | nil => rfl
  | cons e rest ih =>
    obtain ⟨key, v⟩ := e
    rw [List.cons_append, subtableParts, subtableParts, ih, List.append_assoc]

theorem subtableParts_of_plain {entries : Entries} (plain : ∀ e ∈ entries, e.2.Plain)
    (path : List String) : subtableParts path entries = [] := by
  induction entries with
  | nil => rfl
  | cons e rest ih =>
    obtain ⟨key, v⟩ := e
    have first : v.Plain := plain (key, v) List.mem_cons_self
    have none : tableParts (path ++ [key]) v = [] := by cases first <;> rfl
    rw [subtableParts, none, ih fun e member => plain e (List.mem_cons_of_mem _ member),
      List.append_nil]

theorem needsHeader_of_plain {entries : Entries} (plain : ∀ e ∈ entries, e.2.Plain) :
    needsHeader entries = true := by
  cases entries with
  | nil => rfl
  | cons e rest =>
    obtain ⟨key, v⟩ := e
    have first : v.Plain := plain (key, v) List.mem_cons_self
    cases first <;> simp [needsHeader, Value.table?]

theorem renderAssignments_append {entries : Entries} (plain : ∀ e ∈ entries, e.2.Plain)
    (others : Entries) : renderAssignments (entries ++ others) =
      renderAssignments entries ++ renderAssignments others := by
  induction entries with
  | nil => rfl
  | cons e rest ih =>
    obtain ⟨key, v⟩ := e
    have first : v.Plain := plain (key, v) List.mem_cons_self
    rw [List.cons_append, renderAssignments_plain first, renderAssignments_plain first,
      ih fun e member => plain e (List.mem_cons_of_mem _ member)]
    exact (List.append_assoc ..).symm

/-- Tables are written under headers of their own. -/
theorem renderAssignments_table (key : String) (entries : Entries) :
    renderAssignments [(key, .table entries)] = [] :=
  rfl

theorem opens_renderAssignments {entries : Entries} (filled : entries ≠ [])
    (plain : ∀ e ∈ entries, e.2.Plain) :
    ∃ c tail, renderAssignments entries = c :: tail ∧ Opens c := by
  obtain ⟨⟨key, v⟩, rest, rfl⟩ := List.exists_cons_of_ne_nil filled
  obtain ⟨c, tail, written, opens, _⟩ := exists_opens_keyText key
  have first : v.Plain := plain (key, v) List.mem_cons_self
  refine ⟨c, tail ++ " = ".toList ++ v.render ++ ['\n'] ++ renderAssignments rest, ?_, opens⟩
  rw [renderAssignments_plain first, assignmentText, written]
  rfl

namespace Layout

variable (d : Layout)

theorem tableParts_section {s : String × Entries} (member : s ∈ d.sections) :
    tableParts [d.title, s.1] (.table s.2) = [d.sectionText s] := by
  have plain := d.sectionsPlain s member
  rw [tableParts, subtableParts_of_plain plain]
  simp [needsHeader_of_plain plain, sectionText, headerText]

theorem subtableParts_tables : subtableParts [d.title] d.tables = d.sections.map d.sectionText := by
  have each : ∀ sections : List (String × Entries), (∀ s ∈ sections, s ∈ d.sections) →
      subtableParts [d.title] (sections.map fun s => (s.1, .table s.2)) =
        sections.map d.sectionText := by
    intro sections members
    induction sections with
    | nil => rfl
    | cons s rest ih =>
      have first := d.tableParts_section (members s List.mem_cons_self)
      rw [List.map_cons, subtableParts, List.singleton_append, first,
        ih fun s member => members s (List.mem_cons_of_mem _ member)]
      rfl
  exact each d.sections fun _ member => member

theorem subtableParts_entries : subtableParts [] d.entries = d.sections.map d.sectionText := by
  rw [entries, subtableParts_append, subtableParts_of_plain d.rootPlain, List.nil_append]
  split
  · rename_i none
    rw [List.isEmpty_iff.mp none]
    rfl
  · rename_i some
    have noHeader : needsHeader d.tables = false := by
      simpa [needsHeader, tables, Value.table?] using some
    rw [subtableParts, List.nil_append, tableParts, noHeader, d.subtableParts_tables]
    simp [subtableParts]

theorem renderAssignments_entries : renderAssignments d.entries = renderAssignments d.root := by
  rw [entries, renderAssignments_append d.rootPlain]
  split
  · exact List.append_nil _
  · rw [renderAssignments_table, List.append_nil]

theorem tableParts_entries : tableParts [] (.table d.entries) = d.parts := by
  rw [tableParts, d.subtableParts_entries, parts, d.renderAssignments_entries]
  congr 1
  by_cases bare : d.root = []
  · have none : renderAssignments [] = [] := rfl
    simp [bare, none]
  · obtain ⟨⟨key, v⟩, rest, root⟩ := List.exists_cons_of_ne_nil bare
    have plain : v.Plain := d.rootPlain (key, v) (by simp [root])
    have header : needsHeader d.entries = true := by
      rw [entries, root]
      cases plain <;> simp [needsHeader, Value.table?]
    obtain ⟨c, tail, text, _⟩ := opens_renderAssignments bare d.rootPlain
    simp [header, text, bare]

theorem spelled_sectionText {s : String × Entries} (member : s ∈ d.sections) :
    Spelled (d.sectionText s) (d.sectionStatements s) := by
  have shallow : [d.title].length < depthLimit := by simp [depthLimit]
  exact (spelled_header shallow).append (spelled_assignments (d.sectionsPlain s member))

end Layout

/-- Parts with blank lines between them are read one after the other. -/
theorem spelled_join {parts : List (List Char)} {statements : List (List Statement)}
    (spelled : List.Forall₂ Spelled parts statements) :
    Spelled (parts.intersperse ['\n']).flatten statements.flatten := by
  induction spelled with
  | nil => exact spelled_nil
  | cons first rest ih =>
    cases rest with
    | nil => simpa using first
    | cons second others =>
      have blank := first.append (spelled_newline.append ih)
      simpa using blank

namespace Layout

variable (d : Layout)

theorem spelled_write : Spelled (write d.entries).toList d.statements := by
  have sections : List.Forall₂ Spelled (d.sections.map d.sectionText)
      (d.sections.map d.sectionStatements) := by
    rw [List.forall₂_map_left_iff, List.forall₂_map_right_iff, List.forall₂_same]
    exact fun s member => d.spelled_sectionText member
  rw [write, String.toList_ofList, d.tableParts_entries, parts]
  by_cases bare : d.root = []
  · simpa [statements, assignmentsOf, bare, List.flatMap] using spelled_join sections
  · have root : Spelled (renderAssignments d.root) (assignmentsOf d.root) :=
      spelled_assignments d.rootPlain
    simpa [statements, bare, List.flatMap] using spelled_join (.cons root sections)

end Layout

end Parts

namespace Draft

variable {draft : Draft} {key : String}

theorem lookup_fresh (fresh : key ∉ draft.map Prod.fst) : draft.lookup key = none := by
  rw [List.lookup_eq_none_iff]
  intro e member
  have other : key ≠ e.1 := fun same => fresh (same ▸ List.mem_map_of_mem member)
  simpa using other

theorem lookup_concat (fresh : key ∉ draft.map Prod.fst) (item : Item) :
    (draft ++ [(key, item)]).lookup key = some item := by
  rw [List.lookup_append, lookup_fresh fresh, Option.none_or, List.lookup_cons_self]

theorem replace_concat (fresh : key ∉ draft.map Prod.fst) (old new : Item) :
    replace key new (draft ++ [(key, old)]) = draft ++ [(key, new)] := by
  have kept : draft.map (fun e => if e.1 = key then (key, new) else e) = draft := by
    refine (List.map_congr_left fun e member => ?_).trans (List.map_id draft)
    have other : e.1 ≠ key := fun same => fresh (same ▸ List.mem_map_of_mem member)
    exact if_neg other
  rw [replace, List.map_append, kept, List.map_singleton, if_pos rfl]

/-- A path that leads to a draft inside another one: what is changed there changes nothing
around it. -/
def Leads (path : List String) (around : Draft → Draft) : Prop :=
  ∀ change inner, within change path (around inner) = (change inner).map around

theorem leads_nil : Leads [] id := by
  intro change inner
  rw [Option.map_id]
  rfl

/-- The path goes on through the table that was opened last. -/
theorem Leads.last {path : List String} {around : Draft → Draft} (leads : Leads path around)
    (fresh : key ∉ draft.map Prod.fst) (origin : Origin) :
    Leads (key :: path) fun inner => draft ++ [(key, Item.table origin (around inner))] := by
  intro change inner
  rw [within, lookup_concat fresh]
  simp only [leads change inner]
  cases change inner with
  | none => rfl
  | some changed =>
    show some (replace key _ (draft ++ _)) = _
    rw [replace_concat fresh]
    rfl

/-- The entries of a table that holds finished values only. -/
def held (entries : Entries) : Draft := entries.map fun e => (e.1, .value e.2)

theorem keys_held (entries : Entries) : (held entries).map Prod.fst = entries.map Prod.fst := by
  simp [held]

end Draft

/-- Assignments go one after the other to the table to which the current path leads. -/
theorem foldlM_assignments {path : List String} {around : Draft → Draft}
    (leads : Draft.Leads path around) {entries : Entries} {inner : Draft}
    (distinct : (inner.map Prod.fst ++ entries.map Prod.fst).Nodup) :
    (assignmentsOf entries).foldlM Reading.step ⟨around inner, path⟩ =
      some ⟨around (inner ++ Draft.held entries), path⟩ := by
  induction entries generalizing inner with
  | nil => simp [assignmentsOf, Draft.held]
  | cons e rest ih =>
    obtain ⟨key, v⟩ := e
    have fresh : key ∉ inner.map Prod.fst := by
      intro member
      have apart := (List.nodup_append.mp distinct).2.2 key member key (by simp)
      exact apart rfl
    have step : Reading.step ⟨around inner, path⟩ (.assign ⟨[], key⟩ v) =
        some ⟨around (inner ++ [(key, .value v)]), path⟩ := by
      simp only [Reading.step]
      rw [leads, Draft.assign, Draft.addNew, Draft.lookup_fresh fresh]
      rfl
    have shifted : ((inner ++ [(key, Item.value v)]).map Prod.fst ++ rest.map Prod.fst).Nodup := by
      simpa using distinct
    rw [assignmentsOf, List.map_cons, List.foldlM_cons, step]
    show (assignmentsOf rest).foldlM Reading.step _ = _
    rw [ih shifted]
    simp [Draft.held]

section Sections

/-- The draft of some entries with the tables under a title that were opened so far. -/
def titled (base : Draft) (title : String) (opened : Draft) : Draft :=
  base ++ if opened.isEmpty then [] else [(title, Item.table .implied opened)]

variable {base opened : Draft} {title key : String}

theorem titled_concat (base : Draft) (title : String) (opened : Draft) (e : String × Item) :
    titled base title (opened ++ [e]) = base ++ [(title, Item.table .implied (opened ++ [e]))] := by
  simp [titled]

/-- A header opens one more table under the title, which the first of them brings about. -/
theorem step_header (titleFresh : title ∉ base.map Prod.fst) (fresh : key ∉ opened.map Prod.fst)
    (current : List String) :
    Reading.step ⟨titled base title opened, current⟩ (.header ⟨[title], key⟩) =
      some ⟨titled base title (opened ++ [(key, Item.table .header [])]), [title, key]⟩ := by
  have opens : Draft.openTable key opened = some (opened ++ [(key, Item.table .header [])]) := by
    rw [Draft.openTable, Draft.lookup_fresh fresh]
  rw [titled_concat]
  simp only [Reading.step]
  cases opened with
  | nil =>
    -- The table under the title is not there yet and is made on the way.
    rw [titled, List.isEmpty_nil, if_pos rfl, List.append_nil, Draft.within,
      Draft.lookup_fresh titleFresh]
    rfl
  | cons e rest =>
    have goes : Draft.within (Draft.openTable key) [title]
        (base ++ [(title, Item.table .implied (e :: rest))]) = (Draft.openTable key (e :: rest)).map
          fun inner => base ++ [(title, Item.table .implied inner)] :=
      Draft.leads_nil.last titleFresh .implied _ _
    rw [titled, List.isEmpty_cons, if_neg Bool.false_ne_true, goes, opens]
    rfl

/-- The tables that the sections open. -/
def openedBy (sections : List (String × Entries)) : Draft :=
  sections.map fun s => (s.1, Item.table .header (Draft.held s.2))

theorem keys_openedBy (sections : List (String × Entries)) :
    (openedBy sections).map Prod.fst = sections.map Prod.fst := by
  simp [openedBy]

namespace Layout

variable (d : Layout)

/-- A section is taken in by its header, and then by its assignments in the table opened. -/
theorem foldlM_section (titleFresh : d.title ∉ base.map Prod.fst) {s : String × Entries}
    (fresh : s.1 ∉ opened.map Prod.fst) (distinct : (s.2.map Prod.fst).Nodup)
    (current : List String) :
    (d.sectionStatements s).foldlM Reading.step ⟨titled base d.title opened, current⟩ =
      some ⟨titled base d.title (opened ++ [(s.1, Item.table .header (Draft.held s.2))]),
        [d.title, s.1]⟩ := by
  have leads : Draft.Leads [d.title, s.1] fun inner =>
      base ++ [(d.title, Item.table .implied (opened ++ [(s.1, Item.table .header inner)]))] :=
    (Draft.leads_nil.last fresh .header).last titleFresh .implied
  have apart : (([] : Draft).map Prod.fst ++ s.2.map Prod.fst).Nodup := by simpa using distinct
  have assigned := foldlM_assignments leads apart
  rw [sectionStatements, List.foldlM_cons, step_header titleFresh fresh, titled_concat,
    titled_concat]
  exact assigned

theorem foldlM_sections (titleFresh : d.title ∉ base.map Prod.fst)
    {sections before : List (String × Entries)}
    (distinct : (before.map Prod.fst ++ sections.map Prod.fst).Nodup)
    (fields : ∀ s ∈ sections, (s.2.map Prod.fst).Nodup) (current : List String) :
    ∃ path, (sections.flatMap d.sectionStatements).foldlM Reading.step
        ⟨titled base d.title (openedBy before), current⟩ =
      some ⟨titled base d.title (openedBy (before ++ sections)), path⟩ := by
  induction sections generalizing before current with
  | nil => exact ⟨current, by simp⟩
  | cons s rest ih =>
    have fresh : s.1 ∉ (openedBy before).map Prod.fst := by
      rw [keys_openedBy]
      intro member
      exact (List.nodup_append.mp distinct).2.2 s.1 member s.1 (by simp) rfl
    have taken := d.foldlM_section titleFresh fresh (fields s List.mem_cons_self) current
    have shifted : ((before ++ [s]).map Prod.fst ++ rest.map Prod.fst).Nodup := by
      simpa using distinct
    obtain ⟨path, read⟩ := ih shifted (fun s member => fields s (List.mem_cons_of_mem _ member))
      [d.title, s.1]
    have one : openedBy before ++ [(s.1, Item.table .header (Draft.held s.2))] =
        openedBy (before ++ [s]) := by
      simp [openedBy]
    refine ⟨path, ?_⟩
    rw [List.flatMap_cons, List.foldlM_append, taken, one, List.append_cons before s rest]
    exact read

end Layout

theorem finishEntries_append (draft others : Draft) :
    finishEntries (draft ++ others) = finishEntries draft ++ finishEntries others := by
  induction draft with
  | nil => rfl
  | cons e rest ih => rw [List.cons_append, finishEntries, finishEntries, ih, List.cons_append]

theorem finishEntries_held (entries : Entries) : finishEntries (Draft.held entries) = entries := by
  induction entries with
  | nil => rfl
  | cons e rest ih =>
    have tail : finishEntries (rest.map fun e => (e.1, .value e.2)) = rest := ih
    rw [Draft.held, List.map_cons, finishEntries, tail]
    rfl

theorem finishEntries_openedBy (sections : List (String × Entries)) :
    finishEntries (openedBy sections) = sections.map fun s => (s.1, .table s.2) := by
  induction sections with
  | nil => rfl
  | cons s rest ih =>
    rw [openedBy, List.map_cons, finishEntries, Item.finish, finishEntries_held]
    rw [openedBy] at ih
    rw [ih, List.map_cons]

namespace Layout

variable (d : Layout)

theorem finishEntries_titled :
    finishEntries (titled (Draft.held d.root) d.title (openedBy d.sections)) = d.entries := by
  rw [titled, finishEntries_append, finishEntries_held, entries]
  congr 1
  by_cases none : d.sections = []
  · simp [none, openedBy, finishEntries]
  · have opened : (openedBy d.sections).isEmpty = false := by simpa [openedBy] using none
    rw [opened, if_neg Bool.false_ne_true, if_neg (by simpa using none), finishEntries, Item.finish,
      finishEntries_openedBy]
    rfl

/-- The statements of the document describe it. -/
theorem ofStatements?_statements : ofStatements? d.statements = some d.entries := by
  have rootKeys : (([] : Draft).map Prod.fst ++ d.root.map Prod.fst).Nodup := by
    simpa using d.rootKeys
  have root := foldlM_assignments Draft.leads_nil rootKeys
  have titleFresh : d.title ∉ (Draft.held d.root).map Prod.fst := by
    rw [Draft.keys_held]
    exact d.titleFresh
  have sectionKeys : (([] : List (String × Entries)).map Prod.fst ++
      d.sections.map Prod.fst).Nodup := by
    simpa using d.sectionKeys
  obtain ⟨path, tables⟩ := d.foldlM_sections titleFresh sectionKeys d.fieldKeys []
  have untitled : titled (Draft.held d.root) d.title (openedBy []) = Draft.held d.root := by
    simp [titled, openedBy]
  have read : d.statements.foldlM Reading.step {} =
      some ⟨titled (Draft.held d.root) d.title (openedBy d.sections), path⟩ := by
    rw [statements, List.foldlM_append]
    refine (congrArg (· >>= _) root).trans ?_
    rw [untitled] at tables
    exact tables
  rw [ofStatements?, read]
  exact congrArg some d.finishEntries_titled

end Layout

end Sections

/-- A text of whole lines is read to its end. -/
theorem Spelled.statementsFor {text : List Char} {statements : List Statement}
    (spelled : Spelled text statements) :
    Toml.statementsFor (text.length + 1) text = some statements := by
  obtain ⟨lines, bound, read⟩ := spelled
  have steps : text.length + 1 = lines + (text.length - lines + 1) := by omega
  have whole := read (text.length - lines + 1) []
  rw [List.append_nil, ← steps] at whole
  rw [whole]
  show some (statements ++ []) = _
  rw [List.append_nil]

/-- What begins a part begins the text. -/
theorem opens_of_parts {parts : List (List Char)}
    (opens : ∀ part ∈ parts, ∃ c tail, part = c :: tail ∧ Opens c) :
    ∀ c ∈ (parts.intersperse ['\n']).flatten.head?, Opens c := by
  cases parts with
  | nil => simp
  | cons part rest =>
    obtain ⟨c, tail, rfl, first⟩ := opens part List.mem_cons_self
    intro d starts
    obtain rfl : c = d := by cases rest <;> simpa using starts
    exact first

namespace Layout

variable (d : Layout)

theorem opens_parts : ∀ part ∈ d.parts, ∃ c tail, part = c :: tail ∧ Opens c := by
  intro part member
  rw [parts, List.mem_append, List.mem_map] at member
  rcases member with own | ⟨s, _, rfl⟩
  · split at own
    · cases own
    · rename_i filled
      obtain rfl := List.mem_singleton.mp own
      exact opens_renderAssignments (by simpa using filled) d.rootPlain
  · exact ⟨'[', _, rfl, .inr (.inr (.inr rfl))⟩

/-- The document is read back from its text. -/
theorem read?_write : read? (write d.entries) = some d.entries := by
  have text : (write d.entries).toList = (d.parts.intersperse ['\n']).flatten := by
    rw [write, String.toList_ofList, d.tableParts_entries]
  have unmarked : dropByteOrderMark (write d.entries).toList = (write d.entries).toList := by
    rw [dropByteOrderMark.eq_def]
    split
    · rename_i marked
      have opens := opens_of_parts d.opens_parts '\uFEFF' (by rw [← text, marked]; rfl)
      exact absurd opens (by decide)
    · rfl
  rw [read?, unmarked, d.spelled_write.statementsFor]
  exact d.ofStatements?_statements

end Layout

end TreeNav.Toml
