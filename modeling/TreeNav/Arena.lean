import TreeNav.Tree.Basic

/-!
Trees kept as a flat list of records. A builder adds nodes one by one below the node
that is open (`open`, `close`, `leaf`, `token`, `build`); every record remembers its
parent, its place among its siblings and its children, all by number. Numbers are handed
out in order of insertion. That a node lies inside the open one is checked where
assertions are checked, and a node outside it ends the run there; where they are not,
every node is added.

From a record one goes to others by the numbers (`node`, `child`, `parent`), and to its
siblings by the index that it carries (`next_sibling`, `prev_sibling`) or, as a view
without such an index does, by searching the parent's list. A program that stops where an
assertion fails is an error here, with the text of the assertion.
-/
namespace TreeNav

/-- One node of an arena. Other nodes are referred to by number. -/
structure ArenaNode where
  label : Label
  parent : Option Nat
  index : Nat
  children : List Nat
deriving DecidableEq, Repr

/-- The records of a tree; number 0 is the root. -/
structure Arena where
  nodes : Array ArenaNode
  rooted : 0 < nodes.size

namespace Arena

/-- The number of nodes. -/
def size (a : Arena) : Nat := a.nodes.size

/-- The record with a given number. -/
def node? (a : Arena) (id : Nat) : Option ArenaNode := a.nodes[id]?

/-- The text that names a node number. -/
def idText (id : Nat) : String := "NodeId(" ++ id.repr ++ ")"

/-- The number of the child with a given index. -/
def child? (a : Arena) (id k : Nat) : Option Nat := (a.node? id).bind fun r => r.children[k]?

/-- The number of the parent. -/
def parent? (a : Arena) (id : Nat) : Option Nat := (a.node? id).bind fun r => r.parent

/-- The parent of a record with the place in the parent's list that the record carries. -/
def storedPlace? (a : Arena) (id : Nat) : Option (Nat × Nat) := do
  let r ← a.node? id
  let p ← r.parent
  return (p, r.index)

/-- The parent of a record with the place of the record in the parent's list, found by going
through the list. -/
def searchedPlace? (a : Arena) (id : Nat) : Option (Nat × Nat) := do
  let p ← a.parent? id
  let up ← a.node? p
  let k ← up.children.findIdx? (· == id)
  return (p, k)

/-- The child after a place in a list. -/
def childAfter? (a : Arena) (place : Nat × Nat) : Option Nat := a.child? place.1 (place.2 + 1)

/-- The child before a place in a list. -/
def childBefore? (a : Arena) (place : Nat × Nat) : Option Nat :=
  if place.2 = 0 then none else a.child? place.1 (place.2 - 1)

/-- The sibling after a record, by the index that the record carries. -/
def next? (a : Arena) (id : Nat) : Option Nat := (a.storedPlace? id).bind a.childAfter?

/-- The sibling before a record, by the index that the record carries. -/
def prev? (a : Arena) (id : Nat) : Option Nat := (a.storedPlace? id).bind a.childBefore?

/-- The sibling after a record, by searching the parent's list for the record. -/
def nextBySearch? (a : Arena) (id : Nat) : Option Nat := (a.searchedPlace? id).bind a.childAfter?

/-- The sibling before a record, by searching the parent's list for the record. -/
def prevBySearch? (a : Arena) (id : Nat) : Option Nat := (a.searchedPlace? id).bind a.childBefore?

/-- The record with the records below it, followed for at most `fuel` levels. -/
def treeOf (a : Arena) : Nat → ArenaNode → Tree
  | 0, r => .node r.label []
  | fuel + 1, r => .node r.label ((r.children.filterMap a.node?).map (a.treeOf fuel))

/-- The tree that the records describe. No tree is deeper than its number of nodes. -/
def toTree (a : Arena) : Tree :=
  have rooted := a.rooted
  a.treeOf a.size a.nodes[0]

end Arena

/-- A node as it is referred to: the tree that it is in and its number there. Trees are told
apart by who keeps them, here by number too, and not by what is in them. -/
structure NodeRef where
  tree : Nat
  id : Nat
deriving DecidableEq, Repr

namespace Arena

/-- The root of the tree that is kept under a number. -/
def rootRef (tree : Nat) : NodeRef := ⟨tree, 0⟩

/-- A node of the tree that is kept under a number, if there is one with this id. -/
def ref? (a : Arena) (tree id : Nat) : Option NodeRef :=
  if id < a.size then some ⟨tree, id⟩ else none

theorem ref?_zero (a : Arena) (tree : Nat) : a.ref? tree 0 = some (rootRef tree) :=
  if_pos a.rooted

end Arena

/-- A node was added outside the range of the node that it was put under. -/
structure Escape where
  child : Label
  parent : Span
deriving DecidableEq, Repr

def Escape.message (e : Escape) : String :=
  "child " ++ e.child.kind ++ " " ++ e.child.span.text ++ " escapes parent " ++ e.parent.text

/-- A step in building a tree: go down into a new named node, go back up, or add a
named leaf or an anonymous token. -/
inductive BuildStep where
  | enter (kind : String) (span : Span)
  | leave
  | leaf (kind : String) (span : Span)
  | token (kind : String) (span : Span)
deriving DecidableEq, Repr

/-- What a step adds. -/
def BuildStep.label? : BuildStep → Option Label
  | enter kind span => some ⟨kind, true, span⟩
  | leave => none
  | leaf kind span => some ⟨kind, true, span⟩
  | token kind span => some ⟨kind, false, span⟩

/-- A tree under construction. New nodes go below `current`; `outer` are the open nodes
around it, innermost first. -/
structure Builder where
  nodes : Array ArenaNode
  current : Nat
  outer : List Nat
  current_lt : current < nodes.size
  outer_lt : ∀ id ∈ outer, id < nodes.size

namespace Builder

/-- A tree that is only its root, which is a named node and stays open. -/
def start (kind : String) (span : Span) : Builder where
  nodes := #[⟨⟨kind, true, span⟩, none, 0, []⟩]
  current := 0
  outer := []
  current_lt := by simp
  outer_lt := by simp

/-- The node that new nodes go below. -/
def openNode (b : Builder) : ArenaNode :=
  have inside := b.current_lt
  b.nodes[b.current]

/-- The records with one more below the open node. -/
def extend (b : Builder) (label : Label) : Array ArenaNode :=
  let above := b.openNode
  (b.nodes.set b.current { above with children := above.children ++ [b.nodes.size] }
    b.current_lt).push ⟨label, some b.current, above.children.length, []⟩

theorem size_extend (b : Builder) (label : Label) :
    (b.extend label).size = b.nodes.size + 1 := by
  simp [extend]

/-- Adds a node below the open one. -/
def push (b : Builder) (label : Label) : Builder where
  nodes := b.extend label
  current := b.current
  outer := b.outer
  current_lt := by
    rw [size_extend]
    exact Nat.lt_succ_of_lt b.current_lt
  outer_lt := fun id member => by
    rw [size_extend]
    exact Nat.lt_succ_of_lt (b.outer_lt id member)

/-- Opens the node that was added last. -/
def openLast (b : Builder) : Builder where
  nodes := b.nodes
  current := b.nodes.size - 1
  outer := b.current :: b.outer
  current_lt := by
    have inside := b.current_lt
    omega
  outer_lt := fun id member => by
    rcases List.mem_cons.mp member with same | further
    · exact same ▸ b.current_lt
    · exact b.outer_lt id further

/-- Goes back to the node around the open one. The root is never left. -/
def leave (b : Builder) : Builder :=
  match h : b.outer with
  | [] => b
  | above :: outer =>
    { nodes := b.nodes
      current := above
      outer := outer
      current_lt := b.outer_lt above (by simp [h])
      outer_lt := fun id member => b.outer_lt id (by simp [h, member]) }

/-- A step without a check. -/
def place (b : Builder) : BuildStep → Builder
  | .enter kind span => (b.push ⟨kind, true, span⟩).openLast
  | .leave => b.leave
  | .leaf kind span => b.push ⟨kind, true, span⟩
  | .token kind span => b.push ⟨kind, false, span⟩

/-- A step that adds a node has to add it inside the open one. -/
def step (b : Builder) (s : BuildStep) : Except Escape Builder :=
  match s.label? with
  | none => .ok (b.place s)
  | some label =>
    if b.openNode.label.span.covers label.span then .ok (b.place s)
    else .error ⟨label, b.openNode.label.span⟩

/-- Runs the steps in order; the first node that escapes ends the run. -/
def run (b : Builder) (steps : List BuildStep) : Except Escape Builder :=
  steps.foldlM step b

/-- The tree so far. Nodes that are still open are complete as they are. -/
def finish (b : Builder) : Arena := ⟨b.nodes, Nat.zero_lt_of_lt b.current_lt⟩

end Builder

namespace Arena

/-- The arena with the given root to which the steps lead, if no node escapes. -/
def build (kind : String) (span : Span) (steps : List BuildStep) : Except Escape Arena :=
  ((Builder.start kind span).run steps).map Builder.finish

/-- The arena with the given root to which the steps lead where nothing is checked. -/
def assemble (kind : String) (span : Span) (steps : List BuildStep) : Arena :=
  (steps.foldl Builder.place (Builder.start kind span)).finish

end Arena

end TreeNav
