import TreeNav.CommandLine.Run
import TreeNav.CommandLine.Sidecar

/-!
The command. It looks at the files that the arguments name, runs the command over them as
a value, prints what there is to print and writes back what has changed. Left out is what
happens to the files while it runs, and what cannot be written back.
-/
open TreeNav

/-- What is at a path, if anything is. -/
def entryOnDisk (path : RawPath) : IO (Option DiskEntry) := do
  try
    return some (.file (← IO.FS.readBinFile path.display))
  catch error =>
    match error with
    | .inappropriateType .. => return some .directory
    | _ => return none

/-- Adds what is at a path, and the directories that lead to it, to the store. -/
def observe (store : FileStore) (path : RawPath) : IO FileStore := do
  let parts := FileName.parts path
  let fromTop := path.bytes.head? == some FileName.slash
  let mut store := store
  for n in List.range parts.length do
    let names := parts.take (n + 1)
    let place := names.foldl FileStore.step (if fromTop then [FileStore.top] else [])
    let way := names.intersperse FileStore.top |>.flatten
    match ← entryOnDisk ⟨if fromTop then FileName.slash :: way else way⟩ with
    | some entry => store := store.put place entry
    | none => pure ()
  return store

/-- The files that an invocation may read or write. -/
def filesOf (invocation : CommandLine.Invocation) : List RawPath :=
  let source :=
    match invocation.command with
    | .move file .. => [file]
    | .tree file .. => [file]
    | _ => []
  invocation.settingsPath :: source

def main (arguments : List String) : IO UInt32 := do
  let files :=
    match CommandLine.parse arguments with
    | .ok invocation => filesOf invocation
    | .error _ => []
  let before ← files.foldlM observe {}
  let outlines ← (files.map CommandLine.sidecarPath).foldlM observe {}
  let parses := files.filterMap fun file =>
    match before.readText file, outlines.readText (CommandLine.sidecarPath file) with
    | .ok source, .ok outline =>
      (CommandLine.parseOfOutline? outline).map fun parse => (source, parse)
    | _, _ => none
  let output ← IO.getStdout
  let around : CommandLine.Surroundings :=
    { grammars := fun _ => { parse? := fun source => parses.lookup source }
      theme := .detect (← output.isTty) }
  let (printed, after) := CommandLine.run around before arguments
  for file in files do
    match before.readText file, after.readText file with
    | .ok old, .ok new => if old != new then IO.FS.writeFile file.display new
    | .error _, .ok new => IO.FS.writeFile file.display new
    | _, .error _ => pure ()
  output.putStr printed.output
  (← IO.getStderr).putStr printed.errors
  return printed.code.toUInt32
