/-!
JSON values and their text on several lines, indented by two blanks. Left out are numbers
other than natural ones, which no report holds, and reading.
-/
namespace TreeNav

/-- A JSON value without fractions. The members of an object keep their order. -/
inductive Json where
  | string (content : String)
  | number (value : Nat)
  | boolean (flag : Bool)
  | array (items : List Json)
  | object (members : List (String × Json))

namespace Json

def hexDigit (n : Nat) : Char := "0123456789abcdef".toList.getD (n % 16) '0'

/-- A character inside a JSON string. Control characters have to be escaped. -/
def escape (c : Char) : List Char :=
  if c = '"' then ['\\', '"']
  else if c = '\\' then ['\\', '\\']
  else if c = '\n' then ['\\', 'n']
  else if c = '\r' then ['\\', 'r']
  else if c = '\t' then ['\\', 't']
  else if c = '\x08' then ['\\', 'b']
  else if c = '\x0c' then ['\\', 'f']
  else if c.toNat < 32 then
    ['\\', 'u', '0', '0', hexDigit (c.toNat / 16), hexDigit c.toNat]
  else [c]

def quote (text : String) : String :=
  String.ofList (['"'] ++ text.toList.flatMap escape ++ ['"'])

/-- A line end followed by two blanks for every level. -/
def lineBreak (level : Nat) : String := String.ofList ('\n' :: List.replicate (2 * level) ' ')

mutual

/-- The text of a value inside `level` brackets. -/
def prettyAt (level : Nat) : Json → String
  | string content => quote content
  | number value => value.repr
  | boolean flag => if flag then "true" else "false"
  | array items =>
    match items with
    | [] => "[]"
    | items => "[" ++ prettyItems level items ++ lineBreak level ++ "]"
  | object members =>
    match members with
    | [] => "\x7b\x7d"
    | members => "\x7b" ++ prettyMembers level members ++ lineBreak level ++ "\x7d"

def prettyItems (level : Nat) : List Json → String
  | [] => ""
  | [item] => lineBreak (level + 1) ++ item.prettyAt (level + 1)
  | item :: rest =>
    lineBreak (level + 1) ++ item.prettyAt (level + 1) ++ "," ++ prettyItems level rest

def prettyMembers (level : Nat) : List (String × Json) → String
  | [] => ""
  | [(key, value)] => lineBreak (level + 1) ++ quote key ++ ": " ++ value.prettyAt (level + 1)
  | (key, value) :: rest =>
    lineBreak (level + 1) ++ quote key ++ ": " ++ value.prettyAt (level + 1) ++ "," ++
      prettyMembers level rest

end

/-- The text of a value, every item and member on a line of its own. -/
def pretty (json : Json) : String := json.prettyAt 0

end Json

end TreeNav
