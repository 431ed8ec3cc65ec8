/-!
Values of a TOML document. Floats and dates are kept as they are written: they are
checked on reading, but nothing is computed with them.
-/
namespace TreeNav.Toml

/-- A TOML value. -/
inductive Value where
  | text (content : String)
  | integer (number : Int)
  | float (written : String)
  | boolean (flag : Bool)
  | dateTime (written : String)
  | array (items : List Value)
  | table (entries : List (String × Value))

/-- The entries of a table, in the order in which they were made. -/
abbrev Entries := List (String × Value)

namespace Value

def text? : Value → Option String
  | text content => some content
  | _ => none

def boolean? : Value → Option Bool
  | boolean flag => some flag
  | _ => none

def array? : Value → Option (List Value)
  | array items => some items
  | _ => none

def table? : Value → Option Entries
  | table entries => some entries
  | _ => none

/-- The texts of an array that holds nothing else. -/
def texts? (v : Value) : Option (List String) := do
  (← v.array?).mapM text?

/-- The named parts of a record: those of a table under its own keys, those of an array
under the given names in turn. A date is a record without parts, and anything else is no
record. -/
def record? (names : List String) : Value → Option Entries
  | table entries => some entries
  | array items => some (names.zip items)
  | dateTime _ => some []
  | _ => none

end Value

/-- Reads the value under a key; a missing key gives the default. -/
def fieldOr {α : Type} (entries : Entries) (key : String) (read : Value → Option α)
    (default : α) : Option α :=
  match entries.lookup key with
  | some value => read value
  | none => some default

/-- Reads the value under a key that has to be there. -/
def field {α : Type} (entries : Entries) (key : String) (read : Value → Option α) : Option α := do
  read (← entries.lookup key)

end TreeNav.Toml
