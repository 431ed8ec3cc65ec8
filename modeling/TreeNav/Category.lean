import TreeNav.Fault
import TreeNav.Text.Lowercase

/-!
Categories of syntax: the eleven sorts of node that a jump can look for, and the
names by which they are asked for (`as_str`, `all`, `from_str`).
-/
namespace TreeNav

/-- A sort of syntax node. -/
inductive Category where
  | function
  | classLike
  | statement
  | loop
  | comment
  | argument
  | variable
  | typeLike
  | operator
  | expression
  | macroUse
deriving DecidableEq, Repr

namespace Category

/-- All categories, in the order in which they are listed. -/
def all : List Category :=
  [.function, .classLike, .statement, .loop, .comment, .argument, .variable, .typeLike,
    .operator, .expression, .macroUse]

theorem mem_all (c : Category) : c ∈ all := by
  cases c <;> decide

/-- The canonical name. -/
def name : Category → String
  | .function => "function"
  | .classLike => "class"
  | .statement => "statement"
  | .loop => "loop"
  | .comment => "comment"
  | .argument => "argument"
  | .variable => "variable"
  | .typeLike => "type"
  | .operator => "operator"
  | .expression => "expression"
  | .macroUse => "macro"

/-- Every accepted name in lower case with the category it stands for. -/
def spellings : List (String × Category) :=
  [("function", .function), ("fn", .function), ("method", .function), ("def", .function),
    ("class", .classLike), ("struct", .classLike),
    ("statement", .statement), ("stmt", .statement),
    ("loop", .loop), ("conditional", .loop), ("control", .loop),
    ("comment", .comment),
    ("argument", .argument), ("arg", .argument), ("parameter", .argument), ("param", .argument),
    ("variable", .variable), ("var", .variable), ("field", .variable),
    ("type", .typeLike),
    ("operator", .operator), ("op", .operator),
    ("expression", .expression), ("expr", .expression),
    ("macro", .macroUse), ("decorator", .macroUse)]

/-- The category that a name stands for, whatever its case. -/
def parse (text : String) : Except Fault Category :=
  match spellings.lookup (Text.lowercase text) with
  | some category => .ok category
  | none => .error (.unknownCategory text)

/-- The category that a name stands for, if it stands for one. -/
def ofName? (text : String) : Option Category := (parse text).toOption

end Category

end TreeNav
