import TreeNav.CommandLine.Command
import TreeNav.Locate.Position
import TreeNav.Report.Listing
import TreeNav.Settings.File

/-!
Running a command over the files around it (`main`, `pick_adapter`). The settings are read
first, whatever the command is; every failure after that ends the run, and the files are
left as they are at that moment. What the command takes from elsewhere is a parameter: the
grammars, TOML, and the reader of its arguments. The log and its switch are left out.
-/
namespace TreeNav.CommandLine

/-- What a run prints and the code with which it ends. -/
structure Printed where
  code : Nat := 0
  output : String := ""
  errors : String := ""
deriving DecidableEq, Repr

/-- Why a command failed. -/
inductive Failure where
  | settings (error : Settings.FileError)
  | disk (error : DiskError)
  | fault (cause : Fault)
  /-- No language goes by the name of the file. -/
  | noLanguage (file : RawPath) (known : List String)
deriving DecidableEq, Repr

def Failure.message : Failure → String
  | settings error => error.message
  | disk error => error.message
  | fault cause => cause.message
  | noLanguage file known =>
    "no language registered for " ++ file.display ++ " (use --language; supported: " ++
      String.intercalate ", " known ++ ")"

/-- What a command takes from its surroundings: the grammars, TOML, the reader of its arguments,
and how reports look. -/
structure Surroundings where
  grammars : Grammars
  toml : Toml.Codec := .standard
  readArguments : List String → Except Halt Invocation := parse
  theme : Theme := .plain

/-- The work of a command. -/
abbrev Work := Disk Failure

/-- The outcome of a request may be a failure of the library. -/
def ofFault {α : Type} (answer : Except Fault α) : Work α :=
  Disk.ask fun _ => answer.mapError .fault

def readSource (file : RawPath) : Work String := (Disk.ask (·.readText file)).mapError .disk

/-- The language of a file: the one that is asked for, else the one that goes by its name. -/
def pickLanguage (registry : Registry) (asked : Option String) (file : RawPath) : Work Adapter :=
  match asked with
  | some name => ofFault (registry.resolve name)
  | none =>
    match registry.findByPath? file with
    | some adapter => return adapter
    | none => throw (.noLanguage file registry.ids)

/-- A line of output. -/
def line (text : String) : String := text ++ "\n"

def runMove (around : Surroundings) (settings : Settings) (format : Format)
    (file : RawPath) (offset : Nat) (motion : String) (upTo : Option Nat)
    (language : Option String) (select : Bool) : Work Printed := do
  let registry ← ofFault (Registry.withOverrides settings.languages)
  let source ← readSource file
  let adapter ← pickLanguage registry language file
  let motion ← ofFault (Motion.parse motion)
  let request : Request :=
    { language := adapter.table.id, caret := offset, motion
      select := select || settings.select.getD false }
  let request :=
    match upTo with
    | some stop => request.withSelection offset stop
    | none => request
  let outcome ← ofFault (registry.navigateSource around.grammars source request)
  let text :=
    match format with
    | .json => (Report.outcomeJson outcome).pretty
    | .text => Report.outcomeLine around.theme motion outcome
  return { output := line text }

/-- The lines of a listing. The last one is marked if the listing leads to the caret. -/
def listingLines (theme : Theme) (toCaret : Bool) (entries : List Report.TreeEntry) : String :=
  String.join (entries.zipIdx.map fun (entry, i) =>
    line (Report.treeLine theme (toCaret && i + 1 == entries.length) entry))

def runTree (around : Surroundings) (settings : Settings) (format : Format)
    (file : RawPath) (offset : Option Nat) (language : Option String) : Work Printed := do
  let registry ← ofFault (Registry.withOverrides settings.languages)
  let source ← readSource file
  let adapter ← pickLanguage registry language file
  let parse ← ofFault (adapter.parse around.grammars source)
  let entries :=
    match offset with
    | some offset =>
      Report.pathListing adapter.classifier ((Node.root parse.tree).atOffset offset)
    | none => Report.fullListing adapter.classifier parse.tree
  let output :=
    match format with
    | .json => line (Json.array (entries.map Report.treeEntryJson)).pretty
    | .text =>
      line (Report.headerLine around.theme (file.display ++ " (" ++ adapter.table.name ++ ")")) ++
        listingLines around.theme offset.isSome entries
  let errors :=
    if parse.hasErrors then
      line (Report.warningLine around.theme
        (file.display ++ " has syntax errors; the tree contains recovery nodes"))
    else ""
  return { output, errors }

def runLanguages (settings : Settings) (format : Format) : Work Printed := do
  let registry ← ofFault (Registry.withOverrides settings.languages)
  let text :=
    match format with
    | .json => (Report.languagesJson registry).pretty
    | .text => Report.languageTable registry
  return { output := line text }

def runInit (around : Surroundings) (path : RawPath) (force : Bool) : Work Printed := do
  (Settings.save around.toml path .initial force).mapError .settings
  return { output := line (Report.successLine around.theme ("Wrote " ++ path.display)) }

/-- Runs what was asked for. The settings are read first, whatever the command is. -/
def perform (around : Surroundings) (invocation : Invocation) : Work Printed := do
  let path := invocation.settingsPath
  let loaded ← (Settings.load around.toml path).mapError .settings
  let settings := loaded.getD {}
  let format := (invocation.format.or settings.format).getD .text
  match invocation.command with
  | .move file offset motion upTo language select =>
    runMove around settings format file offset motion upTo language select
  | .tree file offset language => runTree around settings format file offset language
  | .languages => runLanguages settings format
  | .init force => runInit around path force

def versionText : String := "treejump 0.0.1"

def helpText : String :=
  "Structural syntax-tree navigation - jump between statements, expressions and blocks\n\n" ++
  "Usage: treejump [OPTIONS] <COMMAND>\n\n" ++
  "Commands:\n" ++
  "  move       Run one motion from a caret (or selection) in a file\n" ++
  "  tree       Print the parse tree with node classifications\n" ++
  "  languages  List supported languages\n" ++
  "  init       Write a default config file\n" ++
  "  help       Print this message or the help of the given subcommand(s)\n\n" ++
  "Options:\n" ++
  "  -v, --verbose          Enable verbose logging\n" ++
  "  -c, --config <CONFIG>  Path to the config file\n" ++
  "      --format <FORMAT>  Output format (overrides the config file) [text, json]\n" ++
  "  -h, --help             Print help\n" ++
  "  -V, --version          Print version"

/-- Runs the command with the given arguments over a store of files. -/
def run (around : Surroundings) (store : FileStore) (arguments : List String) :
    Printed × FileStore :=
  match around.readArguments arguments with
  | .error .version => ({ output := line versionText }, store)
  | .error .help => ({ output := line helpText }, store)
  | .error (.usage error) => ({ code := 2, errors := line ("error: " ++ error.message) }, store)
  | .ok invocation =>
    match (perform around invocation).on store with
    | (.ok printed, after) => (printed, after)
    | (.error failure, after) =>
      ({ code := 1, errors := line ("Error: " ++ failure.message) }, after)

end TreeNav.CommandLine
