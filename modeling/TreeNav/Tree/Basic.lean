import TreeNav.Span

/-!
Syntax trees and the places in them. A place is written as the list of child
indices that leads to it, innermost first, so that climbing one level is taking
the tail of the list. The source that a node covers, which no motion reads, is left out.
-/
namespace TreeNav

/-- What a syntax tree says about one node: its grammar kind, whether the grammar
names it (punctuation and keywords are anonymous), and the bytes it stands for. -/
structure Label where
  kind : String
  named : Bool
  span : Span
deriving DecidableEq, Repr

/-- The kind, an at sign and the range. -/
def Label.text (l : Label) : String := l.kind ++ "@" ++ l.span.text

/-- A node with its children in source order. -/
inductive Tree where
  | node (label : Label) (children : List Tree)

/-- Child indices from a node up to the root, innermost first. The root is `[]`. -/
abbrev Path := List Nat

namespace Tree

def label : Tree → Label
  | .node label _ => label

def children : Tree → List Tree
  | .node _ children => children

/-- The range of the root of the tree. -/
def span (t : Tree) : Span := t.label.span

@[simp] theorem label_node (l : Label) (cs : List Tree) : (node l cs).label = l := rfl

@[simp] theorem children_node (l : Label) (cs : List Tree) : (node l cs).children = cs := rfl

mutual

/-- The number of nodes. -/
def size : Tree → Nat
  | .node _ children => sizeAll children + 1

/-- The number of nodes of several trees. -/
def sizeAll : List Tree → Nat
  | [] => 0
  | t :: ts => t.size + sizeAll ts

end

/-- The subtree at a path, if the path stays inside the tree. -/
def at? (t : Tree) : Path → Option Tree
  | [] => some t
  | i :: up => (t.at? up).bind fun s => s.children[i]?

@[simp] theorem at?_nil (t : Tree) : t.at? [] = some t := rfl

theorem at?_cons (t : Tree) (i : Nat) (up : Path) :
    t.at? (i :: up) = (t.at? up).bind fun s => s.children[i]? := rfl

/-- Descending along `inner` after `outer` is descending along both in turn. -/
theorem at?_append (t : Tree) (inner outer : Path) :
    t.at? (inner ++ outer) = (t.at? outer).bind fun s => s.at? inner := by
  induction inner with
  | nil => cases h : t.at? outer <;> simp [h]
  | cons i inner ih =>
    rw [List.cons_append, at?_cons, ih]
    cases t.at? outer <;> rfl

/-- A path that leads somewhere still does so with its last step removed. -/
theorem at?_isSome_of_cons {t : Tree} {i : Nat} {up : Path} (h : (t.at? (i :: up)).isSome) :
    (t.at? up).isSome := by
  rw [at?_cons] at h
  exact Option.isSome_of_isSome_bind h

mutual

/-- The paths of all nodes of a tree that stands at `here`, parents before their
children and children in source order. -/
def pathsFrom (here : Path) : Tree → List Path
  | .node _ children => here :: pathsAmong here 0 children

/-- The paths of all nodes of the trees that are the children of `here` from the
index `i` on. -/
def pathsAmong (here : Path) (i : Nat) : List Tree → List Path
  | [] => []
  | c :: cs => c.pathsFrom (i :: here) ++ pathsAmong here (i + 1) cs

end

/-- The paths of all nodes in pre-order. -/
def paths (t : Tree) : List Path := t.pathsFrom []

end Tree

end TreeNav
