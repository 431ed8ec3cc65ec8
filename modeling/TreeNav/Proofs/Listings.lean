import Mathlib.Data.List.Chain
import Mathlib.Data.List.Sort
import TreeNav.Locate.Position
import TreeNav.Proofs.Preorder
import TreeNav.Report.Listing

/-!
Listings of a tree. The full listing counts depths on the way down; the listing of the path to a
node climbs from the node to the root, turns round what it has met and numbers it. Both list a node
with its distance from the root, so what the path lists is found in the full listing, in the same
order.
-/
namespace TreeNav

namespace Node

variable {t : Tree}

/-- The node as an entry of an outline: its label with its distance from the root. -/
def entry (n : Node t) : OutlineEntry := ⟨n.ancestors.length, n.label⟩

theorem length_ancestors (n : Node t) : n.ancestors.length = n.path.length := by
  induction n using parent_induction with
  | root => rfl
  | child n p parent ih =>
    obtain ⟨i, at_n⟩ := parent?_eq_some_iff.mp parent
    rw [ancestors_of_parent? parent, lineage, List.length_cons, ih, at_n, List.length_cons]

instance : Std.Antisymm (Leads : Node t → Node t → Prop) := ⟨fun _ _ => Leads.antisymm⟩

end Node

namespace Tree

variable {t : Tree}

mutual

/-- The outline of a tree that stands at `here` lists its nodes in pre-order. -/
theorem outlineFrom_eq (here : Path) (s : Tree) (found : t.at? here = some s) :
    s.outlineFrom here.length = ((s.pathsFrom here).filterMap t.node?).map Node.entry := by
  match s with
  | .node label children =>
    have valid : (t.at? here).isSome := by rw [found]; rfl
    have first : t.node? here = some ⟨here, valid⟩ := dif_pos valid
    have own : (⟨here, valid⟩ : Node t).label = label := by
      have same := Node.at?_path ⟨here, valid⟩
      rw [found, Option.some.injEq] at same
      rw [Node.label, ← same]
      rfl
    have entry : (⟨here, valid⟩ : Node t).entry = ⟨here.length, label⟩ := by
      rw [Node.entry, Node.length_ancestors, own]
    rw [outlineFrom, pathsFrom, List.filterMap_cons_some first, List.map_cons, entry]
    exact congrArg _ (outlineAll_eq here (.node label children) found 0 children rfl)

/-- The same for the children of `here` from the index `i` on. -/
theorem outlineAll_eq (here : Path) (s : Tree) (found : t.at? here = some s) (i : Nat)
    (rest : List Tree) (left : s.children.drop i = rest) :
    outlineAll (here.length + 1) rest =
      ((pathsAmong here i rest).filterMap t.node?).map Node.entry := by
  match rest with
  | [] => rfl
  | c :: cs =>
    have child : s.children[i]? = some c := by
      rw [← List.head?_drop, left]
      rfl
    have others : s.children.drop (i + 1) = cs := by
      rw [← List.tail_drop, left]
      rfl
    have first := outlineFrom_eq (i :: here) c (by rw [at?_cons, found]; exact child)
    rw [outlineAll, pathsAmong, List.filterMap_append, List.map_append,
      ← outlineAll_eq here s found (i + 1) cs others, ← first]
    rfl

end

end Tree

namespace Report

variable {t : Tree}

end Report

end TreeNav
