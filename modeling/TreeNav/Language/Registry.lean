import TreeNav.Language.Adapter
import TreeNav.Navigation
import TreeNav.SortedMap

/-!
Registries of languages: setting one up with the overrides of a user (`with_overrides`,
`builtin`, `register`), looking a language up by its id, its name or a file path
(`resolve`, `find_by_path`, `languages`), and answering requests in the language that they
name (`navigate`, `navigate_source`). Left out is the log.
-/
namespace TreeNav

/-- The overrides of a user, by the language that they name. -/
abbrev Overrides := SortedMap Override

/-- Languages in the order in which they were registered. -/
structure Registry where
  adapters : List Adapter := []

namespace Registry

def register (r : Registry) (adapter : Adapter) : Registry := ⟨r.adapters ++ [adapter]⟩

/-- The ids that the key of an override may have. -/
def builtinIds : List String := ["rust", "go", "python", "javascript", "json"]

/-- The list of ids and the tables say the same. -/
theorem builtinIds_eq : builtinIds = LanguageTable.builtin.map LanguageTable.id := rfl

/-- The adapter with all overrides applied whose key is its id, in ascending order of
the keys. -/
def overridden (overrides : Overrides) (adapter : Adapter) : Adapter :=
  overrides.entries.foldl
    (fun result (key, o) =>
      if Text.sameIgnoringAsciiCase key adapter.table.id then result.withOverride o else result)
    adapter

/-- The built-in languages with the overrides of a user. The first key that names none of
them is refused. -/
def withOverrides (overrides : Overrides) : Except Fault Registry :=
  match overrides.entries.find? fun (key, _) => !builtinIds.contains (Text.lowercase key) with
  | some (key, _) => .error (.unsupportedLanguage key)
  | none => .ok ⟨Adapter.builtin.map (overridden overrides)⟩

/-- The registry of the built-in languages. -/
def builtin : Registry := ⟨Adapter.builtin⟩

theorem withOverrides_empty : withOverrides .empty = .ok builtin := rfl

/-- The first language that goes by an id or a name. -/
def resolve (r : Registry) (asked : String) : Except Fault Adapter :=
  match r.adapters.find? (·.table.goesBy asked) with
  | some adapter => .ok adapter
  | none => .error (.unsupportedLanguage asked)

/-- The first language in which a file may be written. -/
def findByPath? (r : Registry) (path : RawPath) : Option Adapter :=
  r.adapters.find? (·.table.handles path)

/-- The ids of all languages. -/
def ids (r : Registry) : List String := r.adapters.map (·.table.id)

/-- The classifier of a language over trees that are known in full. -/
def lens (adapter : Adapter) : Lens := ⟨.full, adapter.classifier⟩

/-- Answers a request over a tree in the language that the request names. -/
def navigate (r : Registry) (t : Tree) (request : Request) : Except Fault Outcome := do
  let adapter ← r.resolve request.language
  return TreeNav.navigate t (lens adapter) request

/-- The furthest offset that a request mentions. -/
def furthest (request : Request) : Nat := max request.current.stop request.caret

/-- Answers a request over a source text. That the request stays inside the text is
checked first. -/
def navigateSource (r : Registry) (grammars : Grammars) (source : String) (request : Request) :
    Except Fault Outcome := do
  if source.utf8ByteSize < furthest request then
    throw (.offsetOutOfRange (furthest request) source.utf8ByteSize)
  let adapter ← r.resolve request.language
  let parse ← adapter.parse grammars source
  return TreeNav.navigate parse.tree (lens adapter) request

end Registry

end TreeNav
