import TreeNav.FileName
import TreeNav.Language.Override
import TreeNav.SortedMap
import TreeNav.Toml.Codec

/-!
Settings of a user and the TOML document in which they are kept: what is written of each
field and under which name, and what is filled in for a field that is missing
(`default_config`, `default_config_path`). How a document is spelt is up to the codec.
-/
namespace TreeNav

/-- How results are written. -/
inductive Format where
  | text
  | json
deriving DecidableEq, Repr

namespace Format

def name : Format → String
  | text => "text"
  | json => "json"

def ofName? : String → Option Format
  | "text" => some text
  | "json" => some json
  | _ => none

/-- A format is written as its name, or as a table that holds nothing but an empty value
under its name. -/
def ofValue? : Toml.Value → Option Format
  | .text content => ofName? content
  | .table [(key, .array [])] => ofName? key
  | .table [(key, .table [])] => ofName? key
  | _ => none

end Format

/-- What a user has set. -/
structure Settings where
  format : Option Format := none
  /-- Report targets as selections. -/
  select : Option Bool := none
  languages : SortedMap Override := .empty

namespace Settings

/-- The settings of a new settings file. -/
def initial : Settings := { format := some .text, select := some true }

/-- Where settings are kept unless the user says otherwise. -/
def defaultPath : RawPath := ("treejump.toml" : String)

/-- The keys of an override. -/
def overrideKeys : List String := ["trivial", "significant", "extensions"]

def readOverride? (v : Toml.Value) : Option Override := do
  let entries ← v.record? overrideKeys
  return {
    trivial := ← Toml.fieldOr entries "trivial" Toml.Value.texts? []
    significant := ← Toml.fieldOr entries "significant" Toml.Value.texts? []
    extensions := ← Toml.fieldOr entries "extensions" Toml.Value.texts? [] }

def readLanguages? (v : Toml.Value) : Option (SortedMap Override) := do
  let entries ← v.table?
  return .ofList (← entries.mapM fun (key, value) => do return (key, ← readOverride? value))

/-- The settings in a document. Everything may be missing, and other keys are left alone. -/
def ofEntries? (entries : Toml.Entries) : Option Settings := do
  return {
    format := ← Toml.fieldOr entries "format" (fun v => (Format.ofValue? v).map some) none
    select := ← Toml.fieldOr entries "select" (fun v => v.boolean?.map some) none
    languages := ← Toml.fieldOr entries "languages" readLanguages? .empty }

/-- The settings in a text. -/
def ofText? (codec : Toml.Codec) (text : String) : Option Settings :=
  (codec.read? text).bind ofEntries?

def textsValue (texts : List String) : Toml.Value := .array (texts.map .text)

def overrideValue (o : Override) : Toml.Value :=
  .table [("trivial", textsValue o.trivial), ("significant", textsValue o.significant),
    ("extensions", textsValue o.extensions)]

/-- The document that holds the settings. What is not set is left out. -/
def entries (s : Settings) : Toml.Entries :=
  (s.format.toList.map fun format => ("format", .text format.name)) ++
  (s.select.toList.map fun flag => ("select", .boolean flag)) ++
  if s.languages.isEmpty then []
  else [("languages", .table (s.languages.entries.map fun (key, o) => (key, overrideValue o)))]

/-- The text of a settings file. -/
def text? (codec : Toml.Codec) (s : Settings) : Option String := codec.write? s.entries

end Settings

end TreeNav
