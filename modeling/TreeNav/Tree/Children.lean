import TreeNav.Tree.Node

/-!
Handing out the children of a node one at a time, from either end (`children`, `next`,
`next_back`, `size_hint`).
-/
namespace TreeNav

/-- The children of `owner` with indices from `front` up to `back` are still to be
handed out. -/
structure Children (t : Tree) where
  owner : Node t
  front : Nat
  back : Nat

namespace Children

variable {t : Tree}

/-- All children of a node. -/
def of (n : Node t) : Children t := ⟨n, 0, n.childCount⟩

/-- How many children are left. -/
def remaining (c : Children t) : Nat := c.back - c.front

/-- Hands out the first child that is left. -/
def next (c : Children t) : Option (Node t) × Children t :=
  if c.front < c.back then (c.owner.child? c.front, { c with front := c.front + 1 })
  else (none, c)

/-- Hands out the last child that is left. -/
def nextBack (c : Children t) : Option (Node t) × Children t :=
  if c.front < c.back then (c.owner.child? (c.back - 1), { c with back := c.back - 1 })
  else (none, c)

end Children

end TreeNav
