import TreeNav.Tree.Basic

/-!
Nodes of a tree. A node is a path that stays inside the tree, so every question
about a node has an answer (`kind`, `range`, `child_count`, `child`, `parent`,
`next_sibling`, `prev_sibling`, `is_leaf`, `is_root`, `ancestors`, `path_to_root`), and
two nodes are equal exactly when they are at the same place.
-/
namespace TreeNav

/-- A node of `t`, identified by its place. -/
structure Node (t : Tree) where
  path : Path
  valid : (t.at? path).isSome

namespace Node

variable {t : Tree}

theorem ext {a b : Node t} (same : a.path = b.path) : a = b := by
  cases a
  cases b
  cases same
  rfl

instance : DecidableEq (Node t) := fun a b =>
  if h : a.path = b.path then .isTrue (ext h) else .isFalse fun e => h (e ▸ rfl)

/-- The node with everything below it. -/
def subtree (n : Node t) : Tree := (t.at? n.path).get n.valid

theorem at?_path (n : Node t) : t.at? n.path = some n.subtree := by
  simp [subtree]

def label (n : Node t) : Label := n.subtree.label

def kind (n : Node t) : String := n.label.kind

def span (n : Node t) : Span := n.label.span

/-- The kind, an at sign and the range. -/
def text (n : Node t) : String := n.label.text

/-- The node that holds all others. -/
def root (t : Tree) : Node t := ⟨[], rfl⟩

/-- A node without a parent. -/
def isRoot (n : Node t) : Bool := n.path.isEmpty

def childCount (n : Node t) : Nat := n.subtree.children.length

/-- A node without children. -/
def isLeaf (n : Node t) : Bool := n.childCount == 0

theorem child_valid (n : Node t) {i : Nat} (h : i < n.childCount) :
    (t.at? (i :: n.path)).isSome := by
  rw [Tree.at?_cons, at?_path]
  simpa [childCount] using h

/-- The child with a given index. -/
def child (n : Node t) (i : Fin n.childCount) : Node t := ⟨i.val :: n.path, n.child_valid i.isLt⟩

/-- The child with index `i`, if there are that many. -/
def child? (n : Node t) (i : Nat) : Option (Node t) :=
  if h : i < n.childCount then some (n.child ⟨i, h⟩) else none

/-- The children in source order. -/
def children (n : Node t) : List (Node t) := List.ofFn n.child

/-- The node one level up. -/
def parent? : Node t → Option (Node t)
  | ⟨[], _⟩ => none
  | ⟨_ :: up, h⟩ => some ⟨up, Tree.at?_isSome_of_cons h⟩

/-- The nodes strictly above a path, innermost first. -/
def ancestorsOf : (path : Path) → (t.at? path).isSome → List (Node t)
  | [], _ => []
  | _ :: up, h =>
    have above := Tree.at?_isSome_of_cons h
    ⟨up, above⟩ :: ancestorsOf up above

/-- The nodes strictly above this one, innermost first. -/
def ancestors (n : Node t) : List (Node t) := ancestorsOf n.path n.valid

/-- The node followed by everything above it. -/
def lineage (n : Node t) : List (Node t) := n :: n.ancestors

/-- The sibling after this one, by the index that the node carries. -/
def next? : Node t → Option (Node t)
  | ⟨[], _⟩ => none
  | ⟨i :: up, h⟩ => child? ⟨up, Tree.at?_isSome_of_cons h⟩ (i + 1)

/-- The sibling before this one, by the index that the node carries. -/
def prev? : Node t → Option (Node t)
  | ⟨[], _⟩ => none
  | ⟨0 :: _, _⟩ => none
  | ⟨(i + 1) :: up, h⟩ => child? ⟨up, Tree.at?_isSome_of_cons h⟩ i

/-- The place of this node among its parent's children, found by comparing it with
each of them in turn. -/
def placeAmongSiblings? (n : Node t) : Option (Node t × Nat) := do
  let above ← n.parent?
  let i ← above.children.findIdx? (· == n)
  return (above, i)

/-- The sibling after this one, by searching the parent's children for it. -/
def nextBySearch? (n : Node t) : Option (Node t) := do
  let (above, i) ← n.placeAmongSiblings?
  above.child? (i + 1)

/-- The sibling before this one, by searching the parent's children for it. -/
def prevBySearch? (n : Node t) : Option (Node t) := do
  let (above, i) ← n.placeAmongSiblings?
  if i = 0 then none else above.child? (i - 1)

/-- How many children the parent has. -/
def siblingCount (n : Node t) : Nat := (n.parent?.map childCount).getD 0

end Node

namespace Tree

/-- The node at a path, if the path stays inside the tree. -/
def node? (t : Tree) (path : Path) : Option (Node t) :=
  if h : (t.at? path).isSome then some ⟨path, h⟩ else none

/-- All nodes in pre-order: parents before their children, children in source order. -/
def nodes (t : Tree) : List (Node t) := t.paths.filterMap t.node?

end Tree

end TreeNav
