import TreeNav.Category

/-!
Motions: the nine ways of moving a caret over a syntax tree, and the names by which they
are asked for (`name`, `is_selection`, `tree_moves`, `from_str`, `parse_category`).
-/
namespace TreeNav

/-- A way of moving. -/
inductive Motion where
  | nextSibling
  | previousSibling
  | parent
  | firstChild
  | lastChild
  | expand
  | shrink
  | next (category : Category)
  | previous (category : Category)
deriving DecidableEq, Repr

namespace Motion

/-- The canonical name. -/
def name : Motion → String
  | nextSibling => "next"
  | previousSibling => "prev"
  | parent => "parent"
  | firstChild => "first-child"
  | lastChild => "last-child"
  | expand => "expand"
  | shrink => "shrink"
  | next category => "next-" ++ category.name
  | previous category => "prev-" ++ category.name

/-- The motion changes a selection and always reports one. -/
def changesSelection : Motion → Bool
  | expand | shrink => true
  | _ => false

/-- The motion goes from node to node along the tree. -/
def isTreeMove : Motion → Bool
  | nextSibling | previousSibling | parent | firstChild | lastChild => true
  | _ => false

/-- Every name of a motion without a category, in lower case and with dashes. -/
def spellings : List (String × Motion) :=
  [("next", nextSibling), ("next-sibling", nextSibling),
    ("prev", previousSibling), ("previous", previousSibling),
    ("prev-sibling", previousSibling), ("previous-sibling", previousSibling),
    ("parent", parent), ("up", parent),
    ("first-child", firstChild), ("child", firstChild), ("down", firstChild),
    ("last-child", lastChild),
    ("expand", expand),
    ("shrink", shrink)]

/-- What stands before the category in the name of a jump. The first that fits is
taken. -/
def jumps : List (String × (Category → Motion)) :=
  [("next-", next), ("prev-", previous), ("previous-", previous)]

/-- The text without the given beginning, if it begins so. -/
def without? (beginning text : String) : Option String :=
  if beginning.toList.isPrefixOf text.toList then
    some (String.ofList (text.toList.drop beginning.length))
  else none

/-- The name in lower case with dashes for underscores, the form in which names are
compared. -/
def normalName (text : String) : String :=
  String.ofList ((Text.lowercase text).toList.map fun c => if c = '_' then '-' else c)

/-- The sort of jump that a name in normal form begins with, and the rest of the name. -/
def jump? (normal : String) : Option ((Category → Motion) × String) :=
  jumps.findSome? fun (beginning, make) =>
    (without? beginning normal).map fun rest => (make, rest)

/-- The motion that a name stands for, whatever its case and with underscores for dashes.
A name of its own wins over the reading as a jump. However the reading fails, it is the
name as a whole that is refused. -/
def parse (text : String) : Except Fault Motion :=
  match spellings.lookup (normalName text) with
  | some motion => .ok motion
  | none =>
    match jump? (normalName text) with
    | some (make, rest) =>
      match Category.parse rest with
      | .ok category => .ok (make category)
      | .error _ => .error (.unknownMotion text)
    | none => .error (.unknownMotion text)

/-- The motion that a name stands for, if it stands for one. -/
def ofName? (text : String) : Option Motion := (parse text).toOption

end Motion

end TreeNav
