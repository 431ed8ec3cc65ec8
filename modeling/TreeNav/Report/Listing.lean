import TreeNav.Language.Registry
import TreeNav.Report.BoxTable
import TreeNav.Report.Json
import TreeNav.Report.Theme
import TreeNav.Tree.Outline

/-!
What is reported to the user, as text and as JSON: outcomes (`moved`, `no_movement`), trees
(`entry`, `walk`, `ancestry`, `tree_line`), languages (`language_rows`, `languages_table`)
and single lines (`header`, `success`, `warn`).
-/
namespace TreeNav.Report

/-- A row of the list of languages: id, name, extensions, number of decided kinds, and the
categories that have any kinds. -/
structure LanguageRow where
  id : String
  name : String
  extensions : String
  size : Nat
  categories : String
deriving DecidableEq, Repr

def languageRow (adapter : Adapter) : LanguageRow where
  id := adapter.table.id
  name := adapter.table.name
  extensions := String.intercalate " " (adapter.table.extensions.map ("." ++ ·))
  size := adapter.classifier.size
  categories := String.intercalate ", "
    ((Category.all.filter fun c => !(adapter.classifier.kindsOf c).isEmpty).map Category.name)

def languageRows (r : Registry) : List LanguageRow := r.adapters.map languageRow

def headings : List String := ["Id", "Language", "Extensions", "Table entries", "Categories"]

/-- The list of languages as a table; nothing if there are none. -/
def languageTable (r : Registry) : String :=
  match languageRows r with
  | [] => ""
  | rows => BoxTable.render headings
      (rows.map fun row => [row.id, row.name, row.extensions, row.size.repr, row.categories])

def languagesJson (r : Registry) : Json :=
  .array (r.adapters.map fun adapter =>
    .object [("extensions", .array (adapter.table.extensions.map .string)),
      ("id", .string adapter.table.id), ("name", .string adapter.table.name)])

def spanJson (span : Span) : Json :=
  .object [("start", .number span.start), ("end", .number span.stop)]

/-- A node in a listing of a tree. -/
structure TreeEntry where
  depth : Nat
  label : Label
  verdict : Verdict
deriving DecidableEq, Repr

/-- An entry for an item of an outline. -/
def treeEntry (classifier : Classifier) (item : OutlineEntry) : TreeEntry :=
  ⟨item.depth, item.label, classifier.verdict item.label.kind item.label.named⟩

/-- The listing of a whole tree. -/
def fullListing (classifier : Classifier) (t : Tree) : List TreeEntry :=
  t.outline.map (treeEntry classifier)

/-- The listing of the nodes from the root down to one node. -/
def pathListing (classifier : Classifier) {t : Tree} (n : Node t) : List TreeEntry :=
  n.lineage.reverse.zipIdx.map fun (m, depth) => treeEntry classifier ⟨depth, m.label⟩

def treeEntryJson (entry : TreeEntry) : Json :=
  .object [("depth", .number entry.depth), ("kind", .string entry.label.kind),
    ("range", spanJson entry.label.span), ("named", .boolean entry.label.named),
    ("classification", .string entry.verdict.name)]

/-- What came of a request, as JSON. -/
def outcomeJson : Outcome → Json
  | .noMovement => .object [("result", .string "no_movement")]
  | .moved caret selection kind =>
    .object ([("result", .string "moved"), ("caret", .number caret)] ++
      (selection.toList.map fun span => ("selection", spanJson span)) ++
      [("kind", .string kind)])

/-- What came of a motion, as a line of text. -/
def outcomeLine (theme : Theme) (motion : Motion) : Outcome → String
  | .noMovement =>
    "⛔ " ++ theme.dim.paint "no movement possible for" ++ " " ++ theme.warn.paint motion.name
  | .moved caret selection kind =>
    let target :=
      match selection with
      | some span => caret.repr ++ " " ++ theme.range.paint ("[" ++ span.text ++ "]")
      | none => theme.range.paint caret.repr
    "🎯 " ++ theme.kind.paint kind ++ " " ++ target

/-- A line that names what follows. -/
def headerLine (theme : Theme) (text : String) : String := "🌳 " ++ theme.header.paint text

def successLine (theme : Theme) (text : String) : String := "✅ " ++ theme.success.paint text

def warningLine (theme : Theme) (text : String) : String := "⚠️ " ++ theme.warn.paint text

/-- A node of a tree on a line of its own, indented by its depth. The node under the caret
is marked. -/
def treeLine (theme : Theme) (current : Bool) (entry : TreeEntry) : String :=
  let style :=
    match entry.verdict with
    | .significant => theme.kind
    | .trivial => theme.trivial
  (if current then "▶" else " ") ++ " " ++ BoxTable.times entry.depth "  " ++
    theme.dim.paint "├─" ++ " " ++ style.paint entry.label.kind ++ " " ++
    theme.range.paint entry.label.span.text

end TreeNav.Report
