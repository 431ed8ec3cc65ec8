import TreeNav.Toml.Value

/-!
Documents put together from their statements. A table may be made by a header of its own,
on the way to another header, or by dotted keys; which of these it was decides whether a
later statement may add to it.
-/
namespace TreeNav.Toml

/-- The keys that lead to a value, the last one apart. -/
structure KeyPath where
  outer : List String
  last : String
deriving DecidableEq, Repr

/-- A line of a document. -/
inductive Statement where
  | header (path : KeyPath)
  | arrayHeader (path : KeyPath)
  | assign (path : KeyPath) (value : Value)

/-- How a table came to be. -/
inductive Origin where
  /-- By a header that names it. -/
  | header
  /-- On the way to a header further down. -/
  | implied
  /-- By dotted keys. -/
  | dotted
deriving DecidableEq, Repr

/-- What stands under a key while the document is read: a finished value, a table that may
still grow, or an array of tables of which the last one may. The tables of such an array
are given last first. -/
inductive Item where
  | value (value : Value)
  | table (origin : Origin) (entries : List (String × Item))
  | tables (last : List (String × Item)) (earlier : List (List (String × Item)))

/-- A table that is being read. -/
abbrev Draft := List (String × Item)

namespace Draft

/-- Replaces what stands under a key that is there. -/
def replace (key : String) (item : Item) (draft : Draft) : Draft :=
  draft.map fun entry => if entry.1 = key then (key, item) else entry

/-- Adds an entry under a key that is not there yet. -/
def addNew (key : String) (item : Item) (draft : Draft) : Option Draft :=
  if (draft.lookup key).isSome then none else some (draft ++ [(key, item)])

/-- Assigns a value under dotted keys. Tables on the way are made where they are missing.
A table that has a header cannot be reached so, and the innermost one has to be made by
dotted keys itself. -/
def assign (value : Value) (last : String) : List String → Draft → Option Draft
  | [], draft => addNew last (.value value) draft
  | key :: outer, draft =>
    match draft.lookup key with
    | none => do
      let inner ← assign value last outer []
      return draft ++ [(key, .table .dotted inner)]
    | some (.table origin inner) =>
      if origin = .header || (outer.isEmpty && origin = .implied) then none
      else do
        let inner ← assign value last outer inner
        return replace key (.table origin inner) draft
    | some (.tables lastTable earlier) =>
      if outer.isEmpty then none
      else do
        let inner ← assign value last outer lastTable
        return replace key (.tables inner earlier) draft
    | some (.value _) => none

/-- Goes down to the table that a path of headers leads to and changes it there. Tables on
the way are made where they are missing; of an array of tables the last one is meant. -/
def within (change : Draft → Option Draft) : List String → Draft → Option Draft
  | [], draft => change draft
  | key :: outer, draft =>
    match draft.lookup key with
    | none => do
      let inner ← within change outer []
      return draft ++ [(key, .table .implied inner)]
    | some (.table origin inner) => do
      let inner ← within change outer inner
      return replace key (.table origin inner) draft
    | some (.tables lastTable earlier) => do
      let inner ← within change outer lastTable
      return replace key (.tables inner earlier) draft
    | some (.value _) => none

/-- Opens the table of a header. It may have been implied before, but not made. -/
def openTable (key : String) (draft : Draft) : Option Draft :=
  match draft.lookup key with
  | none => some (draft ++ [(key, .table .header [])])
  | some (.table .implied entries) => some (replace key (.table .header entries) draft)
  | some _ => none

/-- Opens one more table of an array. -/
def openArrayTable (key : String) (draft : Draft) : Option Draft :=
  match draft.lookup key with
  | none => some (draft ++ [(key, .tables [] [])])
  | some (.tables last earlier) => some (replace key (.tables [] (last :: earlier)) draft)
  | some _ => none

end Draft

mutual

/-- The finished value of an item. -/
def Item.finish : Item → Value
  | .value value => value
  | .table _ entries => .table (finishEntries entries)
  | .tables last earlier => .array (finishTables earlier ++ [.table (finishEntries last)])

/-- The finished entries of a table. -/
def finishEntries : List (String × Item) → Entries
  | [] => []
  | (key, item) :: rest => (key, item.finish) :: finishEntries rest

/-- The finished tables of an array, put back into source order. -/
def finishTables : List (List (String × Item)) → List Value
  | [] => []
  | entries :: rest => finishTables rest ++ [.table (finishEntries entries)]

end

/-- A document while it is read: all of it, and the header path of the table to which
assignments go. -/
structure Reading where
  draft : Draft := []
  current : List String := []

/-- Takes in one more statement. -/
def Reading.step (r : Reading) : Statement → Option Reading
  | .header path => do
    let draft ← Draft.within (Draft.openTable path.last) path.outer r.draft
    return ⟨draft, path.outer ++ [path.last]⟩
  | .arrayHeader path => do
    let draft ← Draft.within (Draft.openArrayTable path.last) path.outer r.draft
    return ⟨draft, path.outer ++ [path.last]⟩
  | .assign path value => do
    let draft ← Draft.within (Draft.assign value path.last path.outer) r.current r.draft
    return { r with draft }

/-- The table that the statements describe. -/
def ofStatements? (statements : List Statement) : Option Entries := do
  let read ← statements.foldlM Reading.step {}
  return finishEntries read.draft

/-- The table that assignments inside braces describe. -/
def ofAssignments? (assignments : List (KeyPath × Value)) : Option Entries := do
  let draft ← assignments.foldlM
    (fun draft (path, value) => Draft.assign value path.last path.outer draft) ([] : Draft)
  return finishEntries draft

end TreeNav.Toml
