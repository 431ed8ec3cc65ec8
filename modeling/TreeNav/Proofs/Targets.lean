import TreeNav.Proofs.Descent
import TreeNav.Proofs.Searches
import TreeNav.Proofs.Siblings

/-!
Where the motions lead: what is known of a target from the motion alone. The root is a
target of no motion but the one to the parent.
-/
namespace TreeNav

variable {t : Tree}

namespace Lens

variable (lens : Lens)

theorem parent_spec {n m : Node t} (found : lens.parent n = some m) :
    m ∈ n.ancestors ∧ m.span ≠ n.span ∧ lens.isSignificant m = true := by
  have holds := List.find?_some found
  simp only [Bool.and_eq_true, bne_iff_ne, ne_eq] at holds
  exact ⟨List.mem_of_find?_eq_some found, holds.1, holds.2⟩

theorem child_spec {direction : Direction} {n m : Node t}
    (found : lens.child direction n = some m) :
    m.parent? = some n ∧ lens.isSignificant m = true := by
  cases direction with
  | forward =>
    exact ⟨Node.mem_children_iff.mp (List.mem_of_find?_eq_some found), List.find?_some found⟩
  | backward =>
    have member := List.mem_of_find?_eq_some found
    exact ⟨Node.mem_children_iff.mp (List.mem_reverse.mp member), List.find?_some found⟩

end Lens

/-- Growing a selection leads to the node around it, or past all nodes of its very range. -/
theorem Node.expand_spec {n m : Node t} {selection : Span} (held : selection.isEmpty = false)
    (found : n.expand selection = some m) :
    m ≠ root t ∧ m.span ≠ selection ∧ m ∈ (n.covering selection).lineage := by
  unfold expand at found
  simp only [held, Bool.false_eq_true, if_false] at found
  rw [Option.filter_eq_some_iff] at found
  obtain ⟨target, inner⟩ := found
  refine ⟨isRoot_eq_false_iff.mp (by simpa using inner), ?_⟩
  split at target
  · have different := List.find?_some target
    rw [bne_iff_ne] at different
    exact ⟨different, (mem_ancestors_iff.mp (List.mem_of_find?_eq_some target)).1⟩
  · rename_i different
    cases target
    exact ⟨different, self_mem_lineage _⟩

theorem Node.expand_ne_root {n m : Node t} {selection : Span}
    (found : n.expand selection = some m) : m ≠ root t := by
  rw [expand, Option.filter_eq_some_iff] at found
  exact isRoot_eq_false_iff.mp (by simpa using found.2)

theorem Node.ne_root_of_parent? {n p : Node t} (parent : n.parent? = some p) : n ≠ root t := by
  rintro rfl
  cases parent

theorem Node.ne_root_of_mem_ancestors {a n : Node t} (above : a ∈ n.ancestors) : n ≠ root t := by
  rintro rfl
  cases above

theorem Lens.sibling_ne_root (lens : Lens) {direction : Direction} {n m : Node t}
    (found : lens.sibling direction n = some m) : m ≠ Node.root t := by
  obtain ⟨_, a, _, beside⟩ := lens.sibling_spec direction found
  obtain ⟨inner, same, _⟩ := Node.beside_spec beside
  obtain ⟨p, parent⟩ := Node.parent?_isSome inner
  exact Node.ne_root_of_parent? (same.trans parent)

/-- Only the move to the parent leads to the root. -/
theorem Lens.locate_ne_root (lens : Lens) {motion : Motion} (inward : motion ≠ .parent)
    {n m : Node t} {selection : Span} (found : lens.locate n selection motion = some m) :
    m ≠ Node.root t := by
  cases motion with
  | parent => exact absurd rfl inward
  | nextSibling => exact lens.sibling_ne_root found
  | previousSibling => exact lens.sibling_ne_root found
  | firstChild =>
    have found : lens.child .forward (n.covering selection) = some m := found
    exact Node.ne_root_of_parent? (lens.child_spec found).1
  | lastChild =>
    have found : lens.child .backward (n.covering selection) = some m := found
    exact Node.ne_root_of_parent? (lens.child_spec found).1
  | expand => exact Node.expand_ne_root found
  | shrink => exact Node.ne_root_of_mem_ancestors (lens.shrink_spec found).1
  | next category => exact Node.ne_root_of_mem_ancestors (lens.jump_forward_spec found).1
  | previous category => exact Node.ne_root_of_mem_ancestors (lens.jump_backward_spec found).1

theorem Tree.Filled.held_of_parent? (filled : t.Filled) {n p : Node t}
    (parent : n.parent? = some p) : n.span.isEmpty = false :=
  filled n (Node.isRoot_eq_false_iff.mpr (Node.ne_root_of_parent? parent))

/-- Where all nodes below the root hold something, so does every target. -/
theorem Tree.WellFormed.locate_held (wf : t.WellFormed) (filled : t.Filled) {lens : Lens}
    {motion : Motion} {m : Node t} {selection : Span}
    (found : lens.locate (Node.root t) selection motion = some m) : m.span.isEmpty = false := by
  by_cases outward : motion = .parent
  · subst outward
    have above := (lens.parent_spec found).1
    have inner := filled _ (Node.isRoot_eq_false_iff.mpr (Node.ne_root_of_mem_ancestors above))
    exact Span.not_isEmpty_of_covers
      (wf.covers_of_mem_lineage (Node.mem_ancestors_iff.mp above).1) inner
  · exact filled m (Node.isRoot_eq_false_iff.mpr (lens.locate_ne_root outward found))

end TreeNav
