import TreeNav.Classifier

/-!
Moves along the tree: to the next significant sibling (`scan_siblings`, `step`), leaving
the level when it has none (`sibling`), to the significant parent (`parent`), and to the
significant children (`child`).
-/
namespace TreeNav

variable {t : Tree}

/-- What a search goes by: how nodes are seen and how they are classified. -/
structure Lens where
  view : View
  classifier : Classifier

namespace Lens

/-- The node is a place to stop. -/
def isSignificant (lens : Lens) (n : Node t) : Bool :=
  lens.classifier.isSignificant lens.view n.label

/-- The node belongs to the category. -/
def belongs (lens : Lens) (category : Category) (n : Node t) : Bool :=
  lens.classifier.belongs lens.view category (n.parent?.map Node.label) n.label

/-- Goes from sibling to sibling, at most `fuel` steps, until a significant one. -/
def scanFor (lens : Lens) (direction : Direction) : Nat → Node t → Option (Node t)
  | 0, _ => none
  | fuel + 1, n =>
    match lens.view.step direction n with
    | none => none
    | some m => if lens.isSignificant m then some m else lens.scanFor direction fuel m

/-- The nearest significant sibling on one side. No level has more steps than nodes. -/
def scan (lens : Lens) (direction : Direction) (n : Node t) : Option (Node t) :=
  lens.scanFor direction n.siblingCount n

/-- The nearest significant sibling on one side, of the node or else of the innermost
node around it that has one. -/
def sibling (lens : Lens) (direction : Direction) (n : Node t) : Option (Node t) :=
  n.lineage.findSome? (lens.scan direction)

/-- The innermost significant node around `n` that has another range. -/
def parent (lens : Lens) (n : Node t) : Option (Node t) :=
  n.ancestors.find? fun a => a.span != n.span && lens.isSignificant a

/-- The first significant child, or the last one. -/
def child (lens : Lens) (direction : Direction) (n : Node t) : Option (Node t) :=
  match direction with
  | .forward => n.children.find? lens.isSignificant
  | .backward => n.children.reverse.find? lens.isSignificant

end Lens

end TreeNav
