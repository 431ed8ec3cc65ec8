import TreeNav.CommandLine.Run
import TreeNav.Proofs.SettingsFile

/-!
Writing new settings from the command line. The command reads the settings that are there before
it does anything else, also where it is asked to write over them. So a settings file is written
anew by force if and only if it could be read; what is broken stays as it is, and so does
everything where force is not used. This holds with any TOML that keeps the initial settings, and
however the arguments are read.
-/
namespace TreeNav

variable {store after : FileStore} {path : RawPath} {content : ByteArray}

namespace Settings

variable {codec : Toml.Codec}

/-- The bytes of a file spell settings. -/
def isReadable (codec : Toml.Codec) (content : ByteArray) : Bool :=
  ((String.fromUTF8? content).bind (ofText? codec)).isSome

theorem isReadable_toUTF8 (text : String) :
    isReadable codec text.toUTF8 = (ofText? codec text).isSome := by
  rw [isReadable, FileStore.fromUTF8?_toUTF8, Option.bind_some]

/-- Settings are loaded from a file if and only if its bytes spell them. -/
theorem on_load_file (found : store.find path = .ok (.file content)) :
    (∃ settings, (load codec path).on store = (.ok settings, store)) ∧
      isReadable codec content = true ∨
    (∃ error, (load codec path).on store = (.error error, store)) ∧
      isReadable codec content = false := by
  rw [on_load, if_pos (FileStore.contains_of_find found), FileStore.readText_of_find found]
  unfold isReadable
  cases String.fromUTF8? content with
  | none => exact .inr ⟨⟨.disk .notText, rfl⟩, rfl⟩
  | some text =>
    rw [Option.bind_some]
    simp only [Option.map_some, Option.getD_some]
    cases ofText? codec text with
    | none => exact .inr ⟨⟨.malformed, rfl⟩, rfl⟩
    | some settings => exact .inl ⟨⟨some settings, rfl⟩, rfl⟩

end Settings

namespace CommandLine

variable {around : Surroundings} {arguments : List String} {invocation : Invocation}

/-- The run succeeded and has left the initial settings at the path and all else as it was. -/
structure Repairs (codec : Toml.Codec) (store : FileStore) (path : RawPath)
    (outcome : Printed × FileStore) : Prop where
  succeeded : outcome.1.code = 0
  written : ∃ text, Settings.initial.text? codec = some text ∧
    outcome.2.find path = .ok (.file text.toUTF8)
  loaded : (Settings.load codec path).on outcome.2 = (.ok (some .initial), outcome.2)
  others : ∃ place, store.Leads path place ∧
    ∀ other, other ≠ place → outcome.2.get? other = store.get? other

/-- The run failed and has left everything as it was. -/
structure Refuses (store : FileStore) (outcome : Printed × FileStore) : Prop where
  failed : outcome.1.code = 1
  unchanged : outcome.2 = store

theorem Refuses.not_repairs {codec : Toml.Codec} {outcome : Printed × FileStore}
    (refused : Refuses store outcome) : ¬Repairs codec store path outcome := by
  intro repaired
  have code := repaired.succeeded
  rw [refused.failed] at code
  cases code

theorem refuses_of_perform (asked : around.readArguments arguments = .ok invocation)
    {failure : Failure} (failed : (perform around invocation).on store = (.error failure, store)) :
    Refuses store (run around store arguments) := by
  have outcome : run around store arguments =
      ({ code := 1, errors := line ("Error: " ++ failure.message) }, store) := by
    simp only [run, asked, failed]
  rw [outcome]
  exact ⟨rfl, rfl⟩

/-- Whatever is asked for, it is not done where the settings cannot be loaded. -/
theorem on_perform_of_load_error {error : Settings.FileError}
    (broken : (Settings.load around.toml invocation.settingsPath).on store =
      (.error error, store)) :
    (perform around invocation).on store = (.error (.settings error), store) := by
  unfold perform
  rw [Disk.on_bind, Disk.on_mapError, broken]
  rfl

theorem on_perform_init {force : Bool} (command : invocation.command = .init force)
    {settings : Option Settings}
    (loaded : (Settings.load around.toml invocation.settingsPath).on store =
      (.ok settings, store)) :
    (perform around invocation).on store =
      (runInit around invocation.settingsPath force).on store := by
  unfold perform
  rw [Disk.on_bind, Disk.on_mapError, loaded, command]
  rfl

/-- A file that can be loaded is written anew by force. -/
theorem repairs_of_load (kept : around.toml.Keeps Settings.initial.entries)
    (asked : around.readArguments arguments = .ok invocation)
    (command : invocation.command = .init true)
    (found : store.find invocation.settingsPath = .ok (.file content)) {settings : Option Settings}
    (loaded : (Settings.load around.toml invocation.settingsPath).on store =
      (.ok settings, store)) :
    Repairs around.toml store invocation.settingsPath (run around store arguments) := by
  have assumed := kept.roundTrips
  obtain ⟨text, written, _⟩ := kept
  have spelt : Settings.initial.text? around.toml = some text := written
  obtain ⟨place, aimed⟩ := FileStore.exists_target_of_find found
  have saved : (Settings.save around.toml invocation.settingsPath .initial true).on store =
      (.ok (), store.put place (.file text.toUTF8)) := by
    rw [Settings.on_save, spelt, aimed, Bool.not_true, Bool.and_false]
    rfl
  have outcome : run around store arguments =
      ({ output := line (Report.successLine around.theme
          ("Wrote " ++ invocation.settingsPath.display)) },
        store.put place (.file text.toUTF8)) := by
    simp only [run, asked, on_perform_init command loaded, runInit, Disk.on_bind, Disk.on_mapError,
      saved]
    rfl
  have wrote := FileStore.wrote_put_target aimed text.toUTF8
  rw [outcome]
  exact ⟨rfl, ⟨text, spelt, wrote.found⟩,
    Settings.on_load_of_find assumed spelt wrote.found, wrote.others⟩

/-- Without force nothing is written where something is. -/
theorem refuses_of_occupied (asked : around.readArguments arguments = .ok invocation)
    (command : invocation.command = .init false)
    (occupied : store.contains invocation.settingsPath = true) :
    Refuses store (run around store arguments) := by
  obtain ⟨result, loaded⟩ : ∃ result,
      (Settings.load around.toml invocation.settingsPath).on store = (result, store) :=
    ⟨_, Settings.on_load around.toml store invocation.settingsPath⟩
  cases result with
  | error error => exact refuses_of_perform asked (on_perform_of_load_error loaded)
  | ok settings =>
    have failed : (perform around invocation).on store =
        (.error (.settings (.occupied invocation.settingsPath)), store) := by
      rw [on_perform_init command loaded, runInit, Disk.on_bind, Disk.on_mapError,
        Settings.on_save_occupied occupied]
      rfl
    exact refuses_of_perform asked failed

/-- Where a file is at the path of the settings, new settings are written over it by force if and
only if its bytes spell settings; otherwise the run fails and everything stays as it is. Without
force the run fails wherever something is at the path, and everything stays as it is. All this is
so with any TOML that keeps the initial settings, as that of this library does, and with any
reader of arguments. -/
theorem forced_init_repairs_iff (around : Surroundings) (store : FileStore) :
    (around.toml.Keeps Settings.initial.entries → ∀ arguments invocation,
      around.readArguments arguments = .ok invocation →
      (invocation.command = .init true →
        ∀ content, store.find invocation.settingsPath = .ok (.file content) →
          (Repairs around.toml store invocation.settingsPath (run around store arguments) ↔
            Settings.isReadable around.toml content = true) ∧
          (Settings.isReadable around.toml content = false →
            Refuses store (run around store arguments))) ∧
      (invocation.command = .init false → store.contains invocation.settingsPath = true →
        Refuses store (run around store arguments))) ∧
    Toml.Codec.standard.Keeps Settings.initial.entries := by
  refine ⟨?_, Settings.initial.keeps_standard⟩
  intro kept arguments invocation asked
  refine ⟨?_, refuses_of_occupied asked⟩
  intro command content found
  rcases Settings.on_load_file found with ⟨⟨settings, loaded⟩, readable⟩ |
    ⟨⟨error, broken⟩, unreadable⟩
  · have repaired : Repairs around.toml store invocation.settingsPath
        (run around store arguments) := repairs_of_load kept asked command found loaded
    simp [readable, repaired]
  · have refused : Refuses store (run around store arguments) :=
      refuses_of_perform asked (on_perform_of_load_error broken)
    simp [unreadable, refused, refused.not_repairs]

example : Settings.initial.text? .standard = some "format = \"text\"\nselect = true\n" := by
  decide +kernel

/-- A store with a single file, in which settings are kept. -/
def keeping (name text : String) : FileStore :=
  ({} : FileStore).put [Text.bytes name] (.file text.toUTF8)

/-- The command as it is, with a grammar that parses nothing. -/
def bare : Surroundings := { grammars := fun _ => { parse? := fun _ => none } }

/-- Settings under another name are written anew by force, and are left alone without it. -/
theorem forced_init_repairs_named_settings :
    parse ["init", "--force", "-c", "x.toml"] = .ok ⟨false, some "x.toml", none, .init true⟩ ∧
    parse ["init", "-c", "x.toml"] = .ok ⟨false, some "x.toml", none, .init false⟩ ∧
    (keeping "x.toml" "select = false\n").find "x.toml" =
      .ok (.file "select = false\n".toUTF8) ∧
    Repairs .standard (keeping "x.toml" "select = false\n") "x.toml"
      (run bare (keeping "x.toml" "select = false\n") ["init", "--force", "-c", "x.toml"]) ∧
    Refuses (keeping "x.toml" "select = false\n")
      (run bare (keeping "x.toml" "select = false\n") ["init", "-c", "x.toml"]) := by
  have forced : parse ["init", "--force", "-c", "x.toml"] =
      .ok ⟨false, some "x.toml", none, .init true⟩ := by decide +kernel
  have unforced : parse ["init", "-c", "x.toml"] =
      .ok ⟨false, some "x.toml", none, .init false⟩ := by decide +kernel
  have found : (keeping "x.toml" "select = false\n").find "x.toml" =
      .ok (.file "select = false\n".toUTF8) := by rfl
  have readable : Settings.isReadable .standard "select = false\n".toUTF8 = true := by
    rw [Settings.isReadable_toUTF8]
    decide +kernel
  obtain ⟨outcome, kept⟩ := forced_init_repairs_iff bare (keeping "x.toml" "select = false\n")
  refine ⟨forced, unforced, found, ?_, ?_⟩
  · exact (((outcome kept _ _ forced).1 rfl _ found).1).mpr readable
  · exact (outcome kept _ _ unforced).2 rfl (FileStore.contains_of_find found)

/-- An assignment without a value is no settings file, and it is not repaired by force. -/
theorem forced_init_leaves_broken_settings :
    parse ["init", "--force"] = .ok ⟨false, none, none, .init true⟩ ∧
    (keeping "treejump.toml" "format =\n").find "treejump.toml" =
      .ok (.file "format =\n".toUTF8) ∧
    ¬Repairs .standard (keeping "treejump.toml" "format =\n") "treejump.toml"
      (run bare (keeping "treejump.toml" "format =\n") ["init", "--force"]) := by
  have forced : parse ["init", "--force"] = .ok ⟨false, none, none, .init true⟩ := by
    decide +kernel
  have found : (keeping "treejump.toml" "format =\n").find "treejump.toml" =
      .ok (.file "format =\n".toUTF8) := by rfl
  have unreadable : Settings.isReadable .standard "format =\n".toUTF8 = false := by
    rw [Settings.isReadable_toUTF8]
    decide +kernel
  refine ⟨forced, found, ?_⟩
  rcases Settings.on_load_file found with ⟨_, readable⟩ | ⟨⟨error, broken⟩, _⟩
  · rw [unreadable] at readable
    cases readable
  · have refused : Refuses (keeping "treejump.toml" "format =\n")
        (run bare (keeping "treejump.toml" "format =\n") ["init", "--force"]) :=
      refuses_of_perform forced (on_perform_of_load_error broken)
    exact refused.not_repairs

end CommandLine

end TreeNav
