import TreeNav.Fault
import TreeNav.FileName
import TreeNav.Language.Builtin

/-!
Adapters: a language as it is used. An adapter keeps the classifier that its table sets up,
so that it need not be set up for every request; whenever the table is adjusted, the
classifier is set up anew (`new`, `with_override`). Here is also what an adapter answers
(`can_handle`, `parse`, and the ids, names and extensions in its table).

The grammars are not part of this library. A grammar is what it answers: why no parser can
be made of it, if none can, and the tree of a source, if it gives one. Left out is that
these two happen in a parser object, which no answer shows, and the log.
-/
namespace TreeNav

/-- The file may be written in the language, going by its name. -/
def LanguageTable.handles (table : LanguageTable) (path : RawPath) : Bool :=
  match (FileName.ofPath? path).bind Text.ofBytes? with
  | some name => table.extensions.any (FileName.endsIn name)
  | none => false

/-- The language goes by this id or name, in ASCII letters of either case. -/
def LanguageTable.goesBy (table : LanguageTable) (asked : String) : Bool :=
  Text.sameIgnoringAsciiCase table.id asked || Text.sameIgnoringAsciiCase table.name asked

/-- The tree of a source, and whether the grammar had to recover from an error in it. -/
structure Parse where
  tree : Tree
  hasErrors : Bool

/-- A grammar, by what it answers. -/
structure Grammar where
  /-- Why no parser can be made of the grammar, if none can. -/
  defect : Option String := none
  parse? : String → Option Parse

/-- The grammars of all languages. -/
abbrev Grammars := LanguageTable → Grammar

/-- A language with the classifier that its table sets up. -/
structure Adapter where
  table : LanguageTable
  classifier : Classifier
  agrees : classifier = table.classifier

namespace Adapter

/-- The table alone makes the adapter. -/
theorem ext_table {a b : Adapter} (same : a.table = b.table) : a = b := by
  obtain ⟨_, _, rfl⟩ := a
  obtain ⟨_, _, rfl⟩ := b
  cases same
  rfl

/-- The adapter of a language. -/
def of (table : LanguageTable) : Adapter := ⟨table, table.classifier, rfl⟩

/-- The adapter with the adjustments of a user. Where nothing is asked for, nothing is set up
anew. -/
def withOverride (adapter : Adapter) (o : Override) : Adapter :=
  if o.isEmpty then adapter else of (adapter.table.apply o)

/-- The adapters of the built-in languages, in the order in which they are registered. -/
def builtin : List Adapter := LanguageTable.builtin.map of

/-- Parses a source in the language. -/
def parse (adapter : Adapter) (grammars : Grammars) (source : String) : Except Fault Parse :=
  let grammar := grammars adapter.table
  match grammar.defect with
  | some reason => .error (.unusableGrammar reason)
  | none =>
    match grammar.parse? source with
    | some parse => .ok parse
    | none => .error (.noTree adapter.table.name)

end Adapter

end TreeNav
