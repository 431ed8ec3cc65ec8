import TreeNav.FileName

/-!
Files and directories around a working directory, as a value, for what the command asks of
them: whether something is at a path (`exists`), the text of a file (`read_to_string`), and
a file written anew (`write`). A place is the list of names that lead to it; the working
directory is `[]`, and directories outside it are reached by leading names `..` or, from
the top, by a leading `/`.

What is done to the store may fail, and then the store is left as far as it had come: a
file that was opened for writing is empty from then on, whatever becomes of the writing.
Left out are links, permissions, devices and what several programs do to the files at the
same time, so that a place can always be written to once it is open.
-/
namespace TreeNav

/-- Why reading or writing failed. -/
inductive DiskError where
  | notFound
  | notDirectory
  | isDirectory
  /-- A name or a whole path is longer than names and paths may be. -/
  | nameTooLong
  /-- A path holds a byte that no name can hold. -/
  | badName
  /-- The bytes of a text file are no UTF-8. -/
  | notText
deriving DecidableEq, Repr

def DiskError.message : DiskError → String
  | notFound => "No such file or directory (os error 2)"
  | notDirectory => "Not a directory (os error 20)"
  | isDirectory => "Is a directory (os error 21)"
  | nameTooLong => "File name too long (os error 36)"
  | badName => "file name contained an unexpected NUL byte"
  | notText => "stream did not contain valid UTF-8"

/-- What may stand at a place. -/
inductive DiskEntry where
  | directory
  | file (content : ByteArray)

/-- The names that lead to a place. -/
abbrev Place := List (List UInt8)

/-- What stands at each place. -/
structure FileStore where
  entries : List (Place × DiskEntry) := []

/-- Work on the files. It may fail; what it has done by then stays done. -/
abbrev Disk (ε : Type) := ExceptT ε (StateM FileStore)

namespace Disk

variable {ε δ α β : Type}

/-- What comes of the work on a store: its result and the store that it leaves. -/
def on (work : Disk ε α) (store : FileStore) : Except ε α × FileStore := work.run.run store

/-- Looks something up in the store. -/
def ask (query : FileStore → Except ε α) : Disk ε α := do
  query (← get)

/-- The work with another name for its errors. -/
def mapError (wrap : ε → δ) (work : Disk ε α) : Disk δ α := ExceptT.adapt wrap work

theorem on_pure (value : α) (store : FileStore) :
    (pure value : Disk ε α).on store = (.ok value, store) := rfl

theorem on_throw (error : ε) (store : FileStore) :
    (throw error : Disk ε α).on store = (.error error, store) := rfl

theorem on_get (store : FileStore) :
    (get : Disk ε FileStore).on store = (.ok store, store) := rfl

theorem on_modify (change : FileStore → FileStore) (store : FileStore) :
    (modify change : Disk ε Unit).on store = (.ok (), change store) := rfl

theorem on_ask (query : FileStore → Except ε α) (store : FileStore) :
    (ask query).on store = (query store, store) := by
  show (ExceptT.run (query store : Disk ε α)).run store = _
  cases query store <;> rfl

/-- Further work goes on from the store that the first has left, and is not begun if that failed. -/
theorem on_bind (work : Disk ε α) (further : α → Disk ε β) (store : FileStore) :
    (work >>= further).on store =
      match work.on store with
      | (.ok value, left) => (further value).on left
      | (.error error, left) => (.error error, left) := by
  show (ExceptT.bindCont further (work.on store).1) (work.on store).2 = _
  rcases work.on store with ⟨_ | _, _⟩ <;> rfl

theorem on_mapError (wrap : ε → δ) (work : Disk ε α) (store : FileStore) :
    (work.mapError wrap).on store = ((work.on store).1.mapError wrap, (work.on store).2) := rfl

end Disk

namespace FileStore

open FileName (slash dot up)

/-- The name of the top. -/
def top : List UInt8 := [slash]

/-- The working directory and what is around it are directories without being listed. -/
def isOutside (place : Place) : Bool := place.all (· == up) || place == [top]

def get? (store : FileStore) (place : Place) : Option DiskEntry :=
  if isOutside place then some .directory else store.entries.lookup place

/-- The place one name further on. A single dot leads nowhere else, two dots lead back up. -/
def step (here : Place) (name : List UInt8) : Place :=
  if name = [dot] then here
  else if name != up then here ++ [name]
  else if here == [top] then here
  else if here.all (· == up) then here ++ [up]
  else here.dropLast

/-- The most bytes of a name. -/
def nameLimit : Nat := 255

/-- The most bytes of a path. -/
def pathLimit : Nat := 4095

/-- Follows names from a directory. Everything on the way has to be a directory. -/
def walk (store : FileStore) (here : Place) : List (List UInt8) → Except DiskError Place
  | [] => .ok here
  | name :: rest =>
    match store.get? here with
    | some .directory =>
      if nameLimit < name.length then .error .nameTooLong
      else store.walk (step here name) rest
    | some (.file _) => .error .notDirectory
    | none => .error .notFound

/-- A path taken apart: the place that it starts from, its names in order, and whether a
slash comes after the last of them. -/
structure Route where
  start : Place
  names : List (List UInt8)
  slashed : Bool
deriving DecidableEq, Repr

/-- The route that a path describes, unless no path can be written so. -/
def route (path : RawPath) : Except DiskError Route :=
  let pieces := Text.pieces slash path.bytes
  if path.bytes.contains 0 then .error .badName
  else if path.bytes.isEmpty then .error .notFound
  else if pathLimit < path.bytes.length then .error .nameTooLong
  else .ok
    { start := if pieces.head? == some [] then [top] else []
      names := pieces.filter (· != [])
      slashed := pieces.getLast? == some [] }

/-- The last name of a route names a file or directory itself, rather than by dots. -/
def Route.isNamed (r : Route) : Bool :=
  r.names.getLast?.any fun name => name != [dot] && name != up

/-- What stands where a path leads to. A file has no slash after its name. -/
def find (store : FileStore) (path : RawPath) : Except DiskError DiskEntry := do
  let r ← route path
  match store.get? (← store.walk r.start r.names) with
  | none => throw .notFound
  | some .directory => return .directory
  | some (.file content) => if r.slashed then throw .notDirectory else return .file content

/-- Something stands where the path leads to. -/
def contains (store : FileStore) (path : RawPath) : Bool := (store.find path).isOk

/-- Puts an entry at a place. -/
def put (store : FileStore) (place : Place) (entry : DiskEntry) : FileStore :=
  ⟨(place, entry) :: store.entries.filter fun e => e.1 != place⟩

/-- A listed place holds what was put there last. -/
theorem get?_put_self (store : FileStore) {place : Place} (entry : DiskEntry)
    (listed : isOutside place = false) : (store.put place entry).get? place = some entry := by
  simp [get?, put, listed]

theorem lookup_filter_ne {place other : Place} (different : other ≠ place)
    (entries : List (Place × DiskEntry)) :
    (entries.filter fun e => e.1 != place).lookup other = entries.lookup other := by
  induction entries with
  | nil => rfl
  | cons first rest ih =>
    obtain ⟨own, entry⟩ := first
    by_cases same : own = place
    · have miss : (other == own) = false := beq_false_of_ne (same ▸ different)
      simp [List.lookup_cons, same ▸ miss, same, ih]
    · simp [List.lookup_cons, same, ih]

/-- What stands at other places stays as it is. -/
theorem get?_put_ne (store : FileStore) {place other : Place} (entry : DiskEntry)
    (different : other ≠ place) : (store.put place entry).get? other = store.get? other := by
  have miss : (other == place) = false := beq_false_of_ne different
  simp only [get?, put, List.lookup_cons, miss, lookup_filter_ne different]

/-- Of two entries put at one place the later counts. -/
theorem put_put (store : FileStore) (place : Place) (first second : DiskEntry) :
    (store.put place first).put place second = store.put place second := by
  simp [put]

/-- The text of a file. -/
def readText (store : FileStore) (path : RawPath) : Except DiskError String := do
  match ← store.find path with
  | .directory => throw .isDirectory
  | .file content =>
    match String.fromUTF8? content with
    | some text => return text
    | none => throw .notText

/-- The place of the file that a path names, for writing: a file is there, or nothing is. The
directory that it goes into has to be there, and no directory is made: a name with a slash after
it means a directory, whether there is one or not. -/
def target (store : FileStore) (path : RawPath) : Except DiskError Place := do
  let r ← route path
  if r.slashed && r.isNamed then
    let _ ← store.walk r.start (r.names.dropLast ++ [[dot]])
    throw .isDirectory
  let place ← store.walk r.start r.names
  match store.get? place with
  | some .directory => throw .isDirectory
  | _ => return place

/-- Opens a file for writing. It is made if it is not there, and emptied if it is. -/
def create (path : RawPath) : Disk DiskError Place := do
  let place ← Disk.ask (·.target path)
  modify (·.put place (.file .empty))
  return place

/-- Writes a text to a file. -/
def writeText (path : RawPath) (text : String) : Disk DiskError Unit := do
  let place ← create path
  modify (·.put place (.file text.toUTF8))

/-- Puts an entry where a path leads to, together with the directories on the way. -/
def place (store : FileStore) (path : RawPath) (entry : DiskEntry) : FileStore :=
  let parts := FileName.parts path
  let around := (List.range parts.length).map fun n => (parts.take n).foldl step []
  let store := around.foldl
    (fun store place => if (store.get? place).isSome then store else store.put place .directory)
    store
  store.put (parts.foldl step []) entry

end FileStore

end TreeNav
