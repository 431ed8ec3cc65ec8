/-!
The ways in which a request can fail, and the sentence that reports each of them. What
TOML has to say of a bad table is left out.
-/
namespace TreeNav

/-- Why a request has no answer. -/
inductive Fault where
  /-- No registered language has this id or name. -/
  | unsupportedLanguage (asked : String)
  /-- No motion has this name. -/
  | unknownMotion (asked : String)
  /-- No category has this name. -/
  | unknownCategory (asked : String)
  /-- A caret or selection lies past the end of the source. -/
  | offsetOutOfRange (offset length : Nat)
  /-- No parser can be made of the grammar of the language. -/
  | unusableGrammar (reason : String)
  /-- The grammar of the named language gave no tree. -/
  | noTree (language : String)
  /-- The text is not a language table. -/
  | badTable
deriving DecidableEq, Repr

/-- The sentence that reports a fault. -/
def Fault.message : Fault → String
  | unsupportedLanguage asked => "Language not supported: " ++ asked
  | unknownMotion asked => "Unknown motion: " ++ asked
  | unknownCategory asked => "Unknown category: " ++ asked
  | offsetOutOfRange offset length =>
    "Offset " ++ offset.repr ++ " is out of range for a " ++ length.repr ++ "-byte source"
  | unusableGrammar reason => "Adapter error: Failed to set language: " ++ reason
  | noTree language => "Parse error: " ++ language ++ " parser produced no tree"
  | badTable => "Invalid language table"

end TreeNav
