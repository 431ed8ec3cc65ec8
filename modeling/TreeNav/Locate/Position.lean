import TreeNav.Tree.Node

/-!
From offsets to nodes: the deepest node around a caret (`node_at_offset`), and the deepest
node that covers a selection (`node_covering`). Both go down from a given node, at each
level into the first child that fits (`child_containing`).
-/
namespace TreeNav

namespace Tree

mutual

/-- Goes down from a tree that stands at `here`, as long as some child may be entered,
and always into the first such child. Gives the place where that ends. -/
def descend (enter : Span → Bool) (here : Path) : Tree → Path
  | .node _ children => descendAmong enter here 0 children

/-- The same for the children of `here` from the index `i` on; the place is `here` if
none may be entered. -/
def descendAmong (enter : Span → Bool) (here : Path) (i : Nat) : List Tree → Path
  | [] => here
  | c :: cs =>
    if enter c.span then c.descend enter (i :: here) else descendAmong enter here (i + 1) cs

end

mutual

/-- A descent that starts inside the tree stays inside. -/
theorem descend_isSome (t : Tree) (enter : Span → Bool) (here : Path) (s : Tree)
    (found : t.at? here = some s) : (t.at? (s.descend enter here)).isSome := by
  match s with
  | .node label children =>
    rw [descend]
    exact descendAmong_isSome t enter here (.node label children) found 0 children rfl

theorem descendAmong_isSome (t : Tree) (enter : Span → Bool) (here : Path) (s : Tree)
    (found : t.at? here = some s) (i : Nat) (rest : List Tree) (left : s.children.drop i = rest) :
    (t.at? (descendAmong enter here i rest)).isSome := by
  match rest with
  | [] => simp [descendAmong, found]
  | c :: cs =>
    have child : s.children[i]? = some c := by
      rw [← List.head?_drop, left]
      rfl
    have others : s.children.drop (i + 1) = cs := by
      rw [← List.tail_drop, left]
      rfl
    rw [descendAmong]
    split
    · exact descend_isSome t enter (i :: here) c (by rw [at?_cons, found]; exact child)
    · exact descendAmong_isSome t enter here s found (i + 1) cs others

end

end Tree

namespace Node

variable {t : Tree}

/-- The last node of the descent from `n`. -/
def descend (n : Node t) (enter : Span → Bool) : Node t :=
  ⟨n.subtree.descend enter n.path, Tree.descend_isSome t enter n.path n.subtree n.at?_path⟩

/-- The offset to look for below `n`: one at or past its end stands for its last byte,
if it has one. -/
def clamp (n : Node t) (offset : Nat) : Nat :=
  if n.span.stop ≤ offset && !n.span.isEmpty then n.span.stop - 1 else offset

/-- The deepest node around a caret, looking from `n` down. Empty nodes are passed over. -/
def atOffset (n : Node t) (offset : Nat) : Node t :=
  let offset := n.clamp offset
  n.descend fun s => !s.isEmpty && s.contains offset

/-- The deepest node that covers a selection, looking from `n` down; for an empty
selection, the deepest node around its start. -/
def covering (n : Node t) (selection : Span) : Node t :=
  if selection.isEmpty then n.atOffset selection.start
  else n.descend fun s => !s.isEmpty && s.covers selection

end Node

end TreeNav
