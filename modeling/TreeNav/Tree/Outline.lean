import TreeNav.Tree.Basic

/-!
Outlines: a tree written as the list of its nodes in pre-order, each with its depth.
A parser hands over its result in this form, and the full listing of a tree has the
same shape. Left out is the way in which a parser itself walks its nodes.
-/
namespace TreeNav

/-- A label together with its distance from the root. -/
structure OutlineEntry where
  depth : Nat
  label : Label
deriving DecidableEq, Repr

namespace Tree

mutual

/-- The outline of a tree whose root is at the given depth. -/
def outlineFrom (depth : Nat) : Tree → List OutlineEntry
  | .node label children => ⟨depth, label⟩ :: outlineAll (depth + 1) children

/-- The outlines of several trees at one depth, one after the other. -/
def outlineAll (depth : Nat) : List Tree → List OutlineEntry
  | [] => []
  | t :: ts => t.outlineFrom depth ++ outlineAll depth ts

end

/-- Every node in pre-order with its depth; the root has depth zero. -/
def outline (t : Tree) : List OutlineEntry := t.outlineFrom 0

/-- Puts an entry before trees that are already built: those deeper than the entry,
up to the first that is not, become its children. -/
def plant (entry : OutlineEntry) (built : List (Nat × Tree)) : List (Nat × Tree) :=
  let deeper := built.takeWhile fun b => entry.depth < b.1
  let others := built.dropWhile fun b => entry.depth < b.1
  (entry.depth, .node entry.label (deeper.map Prod.snd)) :: others

/-- The tree that an outline describes: its first entry with all that is deeper. -/
def ofOutline? (entries : List OutlineEntry) : Option Tree :=
  (entries.foldr plant []).head?.map Prod.snd

end Tree

end TreeNav
