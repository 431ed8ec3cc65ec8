import TreeNav.Toml.DateTime
import TreeNav.Toml.Document
import TreeNav.Toml.Quoted

/-!
Reading TOML 1.0: keys, values, the statements of a document and the document itself. Left
out are where in a text a fault lies and what it is.
-/
namespace TreeNav.Toml

/-- How many keys a path may have, and how deep values may be nested. -/
def depthLimit : Nat := 79

/-- One key: bare, or a string on one line. -/
def simpleKey : Scan String
  | '"' :: rest => (basicString 0 rest).map fun (s, rest) => (String.ofList s, rest)
  | '\'' :: rest => (literalString rest).map fun (s, rest) => (String.ofList s, rest)
  | text =>
    match text.takeWhile isBareKey with
    | [] => none
    | key => some (String.ofList key, text.dropWhile isBareKey)

/-- Keys with dots and blanks between them. Every key takes at least one character, so
the length of the text bounds their number. -/
def keysFor : Nat → Scan (List String)
  | 0, _ => none
  | fuel + 1, text => do
    let (key, rest) ← simpleKey (dropBlanks text)
    match dropBlanks rest with
    | '.' :: rest => do
      let (keys, rest) ← keysFor fuel rest
      return (key :: keys, rest)
    | rest => return ([key], rest)

/-- A path of keys. -/
def keyPath (text : List Char) : Option (KeyPath × List Char) := do
  let (keys, rest) ← keysFor (text.length + 1) text
  if depthLimit < keys.length then none
  else return (⟨keys.dropLast, ← keys.getLast?⟩, rest)

/-- The items of an array after its opening bracket. A comma may follow the last one. -/
def arrayItems (one : Scan Value) : Nat → Scan (List Value)
  | 0, _ => none
  | fuel + 1, text =>
    match skipTrivia false text with
    | ']' :: rest => some ([], rest)
    | text => do
      let (item, rest) ← one text
      match skipTrivia false rest with
      | ',' :: rest => do
        let (items, rest) ← arrayItems one fuel rest
        return (item :: items, rest)
      | ']' :: rest => return ([item], rest)
      | _ => none

/-- An assignment inside braces. -/
def assignment (one : Scan Value) (text : List Char) :
    Option ((KeyPath × Value) × List Char) := do
  let (path, rest) ← keyPath text
  let rest ← expect? ['='] rest
  let (value, rest) ← one (dropBlanks rest)
  return ((path, value), dropBlanks rest)

/-- The assignments of an inline table up to its closing brace, at least one. -/
def assignments (one : Scan Value) : Nat → Scan (List (KeyPath × Value))
  | 0, _ => none
  | fuel + 1, text => do
    let (first, rest) ← assignment one text
    match rest with
    | ',' :: rest => do
      let (others, rest) ← assignments one fuel rest
      return (first :: others, rest)
    | '\x7d' :: rest => return ([first], rest)
    | _ => none

/-- An inline table after its opening brace. -/
def inlineTable (one : Scan Value) (text : List Char) : Option (Value × List Char) :=
  match dropBlanks text with
  | '\x7d' :: rest => some (.table [], rest)
  | text => do
    let (assigned, rest) ← assignments one (text.length + 1) text
    return (.table (← ofAssignments? assigned), rest)

/-- A value without parts: a string, a truth value, a date or a number. -/
def scalar (text : List Char) : Option (Value × List Char) :=
  match text with
  | '"' :: _ => (quoted text).map fun (s, rest) => (.text s, rest)
  | '\'' :: _ => (quoted text).map fun (s, rest) => (.text s, rest)
  | 't' :: _ => (expect? "true".toList text).map fun rest => (.boolean true, rest)
  | 'f' :: _ => (expect? "false".toList text).map fun rest => (.boolean false, rest)
  | _ => if looksLikeDateTime text then dateTime text else number text

/-- A value in which arrays and inline tables are nested at most `depth` deep. -/
def value : (depth : Nat) → Scan Value
  | 0, text => scalar text
  | depth + 1, text =>
    match text with
    | '[' :: rest =>
      (arrayItems (value depth) (rest.length + 1) rest).map fun (items, rest) =>
        (.array items, rest)
    | '\x7b' :: rest => inlineTable (value depth) rest
    | _ => scalar text

/-- The statement on a line that is not empty. -/
def statement : Scan Statement
  | '[' :: '[' :: rest => do
    let (path, rest) ← keyPath rest
    let rest ← expect? [']', ']'] rest
    return (.arrayHeader path, rest)
  | '[' :: rest => do
    let (path, rest) ← keyPath rest
    let rest ← expect? [']'] rest
    return (.header path, rest)
  | text => do
    let (path, rest) ← keyPath text
    let rest ← expect? ['='] rest
    let (assigned, rest) ← value depthLimit (dropBlanks rest)
    return (.assign path assigned, rest)

/-- The statements of a text, one to a line. Every line takes at least one character, so
the length of the text bounds their number. -/
def statementsFor : Nat → List Char → Option (List Statement)
  | 0, _ => none
  | fuel + 1, text =>
    match dropComment (dropBlanks text) with
    | [] => some []
    | text =>
      match newline? text with
      | some rest => statementsFor fuel rest
      | none => do
        let (first, rest) ← statement text
        let rest ← lineEnd? rest
        return first :: (← statementsFor fuel rest)

/-- The text without the byte order mark that it may begin with. -/
def dropByteOrderMark : List Char → List Char
  | '\uFEFF' :: rest => rest
  | text => text

/-- The table that a text describes, if it is a TOML document. -/
def read? (text : String) : Option Entries := do
  let chars := dropByteOrderMark text.toList
  ofStatements? (← statementsFor (chars.length + 1) chars)

end TreeNav.Toml
