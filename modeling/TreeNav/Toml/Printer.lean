import TreeNav.Toml.Quoted
import TreeNav.Toml.Value

/-!
Writing TOML in its long form: one assignment a line, arrays of several items one item a
line, and every table under a header of its own after a blank line. Comments, and how a
text that was read had been laid out, are left out.
-/
namespace TreeNav.Toml

/-- A key or a string can be written with fewer marks the less of these it holds. -/
structure Needs where
  /-- A control character other than a tab or a line feed. -/
  control : Bool
  backslash : Bool
  newline : Bool
  /-- The longest run of single quotes. -/
  singleQuotes : Nat
  /-- The longest run of double quotes. -/
  doubleQuotes : Nat
deriving DecidableEq, Repr

/-- The longest run of a character, of which `before` come right before the text. -/
def longestRun (quote : Char) (before : Nat) : List Char → Nat
  | [] => before
  | c :: rest =>
    if c = quote then longestRun quote (before + 1) rest
    else max before (longestRun quote 0 rest)

def isControl (c : Char) : Bool :=
  (c.toNat < 32 && c != '\t' && c != '\n') || c.toNat == 127

def needsOf (text : List Char) : Needs where
  control := text.any isControl
  backslash := text.contains '\\'
  newline := text.contains '\n'
  singleQuotes := longestRun '\'' 0 text
  doubleQuotes := longestRun '"' 0 text

/-- The four hexadecimal digits of a small code point, in capitals. -/
def fourHex (code : Nat) : List Char :=
  let digit := fun n => "0123456789ABCDEF".toList.getD (n % 16) '0'
  [digit (code / 4096), digit (code / 256), digit (code / 16), digit code]

/-- A character of a basic string, escaped where it has to be. -/
def escaped (lines : Bool) (c : Char) : List Char :=
  if c = '\x08' then ['\\', 'b']
  else if c = '\t' then ['\\', 't']
  else if c = '\n' then if lines then ['\n'] else ['\\', 'n']
  else if c = '\x0c' then ['\\', 'f']
  else if c = '\r' then ['\\', 'r']
  else if c = '\\' then ['\\', '\\']
  else if isControl c then '\\' :: 'u' :: fourHex c.toNat
  else [c]

/-- The inside of a basic string. Over several lines up to two double quotes in a row may
stand as they are; `run` of them come right before. -/
def basicInside (lines : Bool) (run : Nat) : List Char → List Char
  | [] => []
  | c :: rest =>
    if c = '"' then
      if lines && run < 2 then '"' :: basicInside lines (run + 1) rest
      else '\\' :: '"' :: basicInside lines 0 rest
    else escaped lines c ++ basicInside lines 0 rest

/-- The four ways of quoting. -/
inductive Quoting where
  | basic
  | literal
  | basicLines
  | literalLines
deriving DecidableEq, Repr

/-- The text between quotes of one kind. Over several lines a line end after the opening
quotes, which does not count, comes before a text that holds one. -/
def Quoting.write (quoting : Quoting) (text : List Char) : List Char :=
  let opening := if text.contains '\n' then ['\n'] else []
  match quoting with
  | basic => ['"'] ++ basicInside false 0 text ++ ['"']
  | literal => ['\''] ++ text ++ ['\'']
  | basicLines => ['"', '"', '"'] ++ opening ++ basicInside true 0 text ++ ['"', '"', '"']
  | literalLines => ['\'', '\'', '\''] ++ opening ++ text ++ ['\'', '\'', '\'']

/-- How a string is quoted: without any escape if some way allows it, on one line rather
than on several, in double quotes rather than in single ones. -/
def quotingOf (text : List Char) : Quoting :=
  let n := needsOf text
  if !n.control && !n.backslash && n.doubleQuotes = 0 && !n.newline then .basic
  else if !n.control && n.singleQuotes = 0 && !n.newline then .literal
  else if !n.control && !n.backslash && n.doubleQuotes ≤ 2 then .basicLines
  else if !n.control && n.singleQuotes ≤ 2 then .literalLines
  else if n.newline then .basicLines
  else .basic

/-- A key needs no quotes if it is made of letters, digits, dashes and underscores. -/
def keyText (key : String) : List Char :=
  let text := key.toList
  let n := needsOf text
  if !text.isEmpty && text.all isBareKey then text
  else if !n.control && !n.backslash && n.doubleQuotes = 0 && !n.newline then
    Quoting.basic.write text
  else if !n.control && n.singleQuotes = 0 && !n.newline then Quoting.literal.write text
  else Quoting.basic.write text

def stringText (content : String) : List Char :=
  let text := content.toList
  (quotingOf text).write text

/-- Keys with dots between them. -/
def pathText (path : List String) : List Char := (path.map keyText).intersperse ['.'] |>.flatten

mutual

/-- A value on the right of an equals sign. -/
def Value.render : Value → List Char
  | .text content => stringText content
  | .integer number => (toString number).toList
  | .float written => written.toList
  | .boolean flag => if flag then "true".toList else "false".toList
  | .dateTime written => written.toList
  | .array items =>
    match items with
    | [] => "[]".toList
    | [item] => ['['] ++ item.render ++ [']']
    | items => ['[', '\n'] ++ renderItems items ++ [']']
  | .table entries => ['\x7b', ' '] ++ renderInline entries ++ [' ', '\x7d']

/-- The items of an array, each on a line of its own. -/
def renderItems : List Value → List Char
  | [] => []
  | item :: rest => "    ".toList ++ item.render ++ [',', '\n'] ++ renderItems rest

/-- The assignments of an inline table. -/
def renderInline : List (String × Value) → List Char
  | [] => []
  | [(key, value)] => keyText key ++ " = ".toList ++ value.render
  | (key, value) :: rest =>
    keyText key ++ " = ".toList ++ value.render ++ [',', ' '] ++ renderInline rest

end

/-- The assignments of a table whose values are no tables, one a line. -/
def renderAssignments : Entries → List Char
  | [] => []
  | (_, .table _) :: rest => renderAssignments rest
  | (key, value) :: rest =>
    keyText key ++ " = ".toList ++ value.render ++ ['\n'] ++ renderAssignments rest

/-- A table has something to stand under its header, or nothing below it either. -/
def needsHeader (entries : Entries) : Bool :=
  entries.isEmpty || entries.any fun entry => entry.2.table?.isNone

mutual

/-- The parts of a document that belong to a table with a given path: its own assignments
under its header, then the parts of the tables in it. -/
def tableParts (path : List String) : Value → List (List Char)
  | .table entries =>
    let own :=
      if path.isEmpty then renderAssignments entries
      else ['['] ++ pathText path ++ [']', '\n'] ++ renderAssignments entries
    let own := if needsHeader entries && !own.isEmpty then [own] else []
    own ++ subtableParts path entries
  | _ => []

def subtableParts (path : List String) : List (String × Value) → List (List Char)
  | [] => []
  | (key, value) :: rest => tableParts (path ++ [key]) value ++ subtableParts path rest

end

/-- The text of a document: its parts with a blank line between them. -/
def write (entries : Entries) : String :=
  String.ofList ((tableParts [] (.table entries)).intersperse ['\n'] |>.flatten)

end TreeNav.Toml
