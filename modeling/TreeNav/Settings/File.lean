import TreeNav.FileStore
import TreeNav.Settings

/-!
Settings files: reading the settings that are kept at a path (`load_config`), and writing
new ones without losing old ones by accident (`write_config`). What the codec has to say of
a text that it cannot read is left out of the message, and so is the log.
-/
namespace TreeNav.Settings

/-- Why settings could not be read or written. -/
inductive FileError where
  /-- Something is at the path already. -/
  | occupied (path : RawPath)
  | disk (error : DiskError)
  /-- The text is no TOML, or does not hold settings. -/
  | malformed
  /-- The codec does not write the settings. -/
  | unwritable
deriving DecidableEq, Repr

def FileError.message : FileError → String
  | occupied path => "config already exists at " ++ path.display ++ " (use --force to overwrite)"
  | disk error => error.message
  | malformed => "TOML parse error"
  | unwritable => "TOML write error"

/-- The settings at a path, if anything is there. -/
def load (codec : Toml.Codec) (path : RawPath) : Disk FileError (Option Settings) := do
  if !(← get).contains path then return none
  let text ← (Disk.ask (·.readText path)).mapError .disk
  match ofText? codec text with
  | some settings => return settings
  | none => throw .malformed

/-- Writes settings to a path. Without `force` nothing may be there yet. -/
def save (codec : Toml.Codec) (path : RawPath) (settings : Settings) (force : Bool) :
    Disk FileError Unit := do
  if (← get).contains path && !force then throw (.occupied path)
  match settings.text? codec with
  | some text => (FileStore.writeText path text).mapError .disk
  | none => throw .unwritable

end TreeNav.Settings
