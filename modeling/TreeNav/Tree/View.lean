import TreeNav.Tree.Node

/-!
Ways of looking at a tree. A host may know its trees in full, or know no more of a
node than its kind, range, children and parent; what is missing is then filled in
(`is_named`, `next_sibling`, `prev_sibling`).
-/
namespace TreeNav

/-- The two ends towards which a search may go. -/
inductive Direction where
  | forward
  | backward
deriving DecidableEq, Repr

/-- `full` reads the anonymous nodes and the index of a node among its siblings off
the tree. `bare` takes every node for a named one and finds its siblings by searching
the parent's children. -/
inductive View where
  | full
  | bare
deriving DecidableEq, Repr

namespace View

/-- The view takes a node with this label for a named one. -/
def named : View → Label → Bool
  | full, l => l.named
  | bare, _ => true

/-- The neighbouring sibling in a direction. -/
def step {t : Tree} : View → Direction → Node t → Option (Node t)
  | full, .forward, n => n.next?
  | full, .backward, n => n.prev?
  | bare, .forward, n => n.nextBySearch?
  | bare, .backward, n => n.prevBySearch?

end View

end TreeNav
