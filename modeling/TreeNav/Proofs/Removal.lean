import Mathlib.Data.List.Sort
import TreeNav.Proofs.Siblings

/-!
Taking a subtree out of a tree. The nodes that stay keep their labels, their parents and
their order; only the indices of the later siblings of what was taken out move up. Moves along
the tree pass over trivial nodes and never look below them, so they do not see whether a
trivial node is there with its subtree or not.
-/
namespace TreeNav

namespace Tree

mutual

/-- The tree that stands at `here`, without the child number `i` of the node at `above`. -/
def withoutFrom (above : Path) (i : Nat) (here : Path) : Tree → Tree
  | .node label children =>
    let below := withoutAmong above i here 0 children
    .node label (if here = above then below.eraseIdx i else below)

/-- The trees that are the children of `here` from the index `k` on, without the child
number `i` of the node at `above`. -/
def withoutAmong (above : Path) (i : Nat) (here : Path) (k : Nat) : List Tree → List Tree
  | [] => []
  | c :: cs => c.withoutFrom above i (k :: here) :: withoutAmong above i here (k + 1) cs

end

/-- The tree without the subtree that is the child number `i` of the node at `above`. -/
def without (t : Tree) (above : Path) (i : Nat) : Tree := t.withoutFrom above i []

end Tree

namespace Path

/-- The index that a child of `here` had before the child number `i` of `above` was taken
out. -/
def oldIndex (above : Path) (i : Nat) (here : Path) (j : Nat) : Nat :=
  if here = above ∧ i ≤ j then j + 1 else j

/-- The place where a node was before the child number `i` of `above` was taken out. -/
def restore (above : Path) (i : Nat) : Path → Path
  | [] => []
  | j :: up => oldIndex above i (restore above i up) j :: restore above i up

variable {above here : Path} {i j k : Nat}

theorem oldIndex_lt_oldIndex (less : j < k) :
    oldIndex above i here j < oldIndex above i here k := by
  by_cases level : here = above
  · simp only [oldIndex, level, true_and]
    split <;> split <;> omega
  · simpa [oldIndex, level] using less

theorem oldIndex_cons_ne : oldIndex above i here j :: here ≠ i :: above := by
  unfold oldIndex
  split
  · rename_i moved
    simp only [ne_eq, List.cons.injEq, not_and]
    omega
  · rename_i stayed
    simp only [ne_eq, List.cons.injEq, not_and]
    intro same level
    exact stayed ⟨level, by omega⟩

/-- Every index but that of what was taken out is the old index of some child. -/
theorem exists_oldIndex (other : k :: here ≠ i :: above) : ∃ j, oldIndex above i here j = k := by
  by_cases moved : here = above ∧ i < k
  · refine ⟨k - 1, ?_⟩
    rw [oldIndex, if_pos ⟨moved.1, by omega⟩]
    omega
  · refine ⟨k, if_neg ?_⟩
    rintro ⟨level, le⟩
    have same : i = k := by
      by_contra different
      exact moved ⟨level, by omega⟩
    exact other (by rw [level, same])

theorem restore_suffix {p q : Path} (part : p <:+ q) : restore above i p <:+ restore above i q := by
  obtain ⟨inner, rfl⟩ := part
  induction inner with
  | nil => exact List.suffix_refl _
  | cons j inner ih => exact ih.trans (List.suffix_cons ..)

theorem length_restore (p : Path) : (restore above i p).length = p.length := by
  induction p with
  | nil => rfl
  | cons j up ih => simp [restore, ih]

theorem restore_injective : Function.Injective (restore above i) := by
  intro p q same
  induction p generalizing q with
  | nil => exact (List.length_eq_zero_iff.mp (by rw [← length_restore q, ← same]; rfl)).symm
  | cons j up ih =>
    cases q with
    | nil => cases same
    | cons k up' =>
      simp only [restore, List.cons.injEq] at same
      obtain ⟨index, level⟩ := same
      have same_up := ih level
      subst same_up
      rcases Nat.lt_trichotomy j k with less | rfl | greater
      · have apart : oldIndex above i (restore above i up) j < oldIndex above i _ k :=
          oldIndex_lt_oldIndex less
        omega
      · rfl
      · have apart : oldIndex above i (restore above i up) k < oldIndex above i _ j :=
          oldIndex_lt_oldIndex greater
        omega

/-- No place that is left was inside what was taken out. -/
theorem not_suffix_restore (p : Path) : ¬ (i :: above) <:+ restore above i p := by
  induction p with
  | nil => simp [restore]
  | cons j up ih =>
    rw [restore, List.suffix_cons_iff]
    rintro (same | inside)
    · exact oldIndex_cons_ne same.symm
    · exact ih inside

end Path

namespace Tree

variable {above : Path} {i : Nat}

theorem getElem?_withoutAmong (here : Path) (k : Nat) (trees : List Tree) (j : Nat) :
    (withoutAmong above i here k trees)[j]? =
      trees[j]?.map (withoutFrom above i ((k + j) :: here)) := by
  induction trees generalizing k j with
  | nil => simp [withoutAmong]
  | cons c cs ih =>
    rw [withoutAmong]
    cases j with
    | zero => simp
    | succ j => simp [ih, Nat.add_assoc, Nat.add_comm 1]

theorem label_withoutFrom (here : Path) (s : Tree) :
    (s.withoutFrom above i here).label = s.label := by
  cases s
  rfl

theorem getElem?_children_withoutFrom (here : Path) (s : Tree) (j : Nat) :
    (s.withoutFrom above i here).children[j]? =
      s.children[Path.oldIndex above i here j]?.map
        (withoutFrom above i (Path.oldIndex above i here j :: here)) := by
  cases s with
  | node label children =>
    simp only [withoutFrom, children_node, Path.oldIndex]
    by_cases level : here = above
    · by_cases before : j < i
      · simp [level, before, List.getElem?_eraseIdx, getElem?_withoutAmong, Nat.not_le.mpr before]
      · simp [level, before, List.getElem?_eraseIdx, getElem?_withoutAmong, Nat.not_lt.mp before]
    · simp [level, getElem?_withoutAmong]

/-- What is left at a place is what was there, less what was taken out. -/
theorem at?_without (t : Tree) (p : Path) :
    (t.without above i).at? p =
      (t.at? (Path.restore above i p)).map (withoutFrom above i (Path.restore above i p)) := by
  induction p with
  | nil => rfl
  | cons j up ih =>
    rw [at?_cons, ih, Path.restore, at?_cons]
    cases t.at? (Path.restore above i up) with
    | none => rfl
    | some s => exact getElem?_children_withoutFrom ..

end Tree

namespace Node

variable {t : Tree} {above : Path} {i : Nat}

/-- The node as it was before a subtree was taken out. -/
def restore (n : Node (t.without above i)) : Node t :=
  ⟨Path.restore above i n.path, by
    have valid := n.valid
    rwa [Tree.at?_without, Option.isSome_map] at valid⟩

theorem path_restore (n : Node (t.without above i)) :
    n.restore.path = Path.restore above i n.path := rfl

theorem restore_injective :
    Function.Injective (restore : Node (t.without above i) → Node t) :=
  fun _ _ same => ext (Path.restore_injective (congrArg path same))

@[simp] theorem restore_root : (root (t.without above i)).restore = root t := rfl

theorem restore_ne_root_iff {n : Node (t.without above i)} : n.restore ≠ root t ↔ n ≠ root _ :=
  restore_injective.ne_iff' restore_root

@[simp] theorem label_restore (n : Node (t.without above i)) : n.restore.label = n.label := by
  have left := n.at?_path
  rw [Tree.at?_without, ← path_restore, at?_path, Option.map_some, Option.some.injEq] at left
  rw [label, label, ← left, Tree.label_withoutFrom]

@[simp] theorem span_restore (n : Node (t.without above i)) : n.restore.span = n.span := by
  rw [span, span, label_restore]

theorem parent?_restore_of_some {n p : Node (t.without above i)} (parent : n.parent? = some p) :
    n.restore.parent? = some p.restore := by
  obtain ⟨j, at_n⟩ := parent?_eq_some_iff.mp parent
  refine parent?_eq_some_iff.mpr ⟨Path.oldIndex above i p.restore.path j, ?_⟩
  rw [path_restore, at_n]
  rfl

theorem parent?_restore (n : Node (t.without above i)) :
    n.restore.parent? = n.parent?.map restore := by
  by_cases top : n = root _
  · subst top
    rfl
  · obtain ⟨p, parent⟩ := parent?_isSome top
    rw [parent, Option.map_some, parent?_restore_of_some parent]

theorem parent?_restore_eq_iff {n m : Node (t.without above i)} :
    m.restore.parent? = n.restore.parent? ↔ m.parent? = n.parent? := by
  rw [parent?_restore, parent?_restore]
  exact (Option.map_injective restore_injective).eq_iff

theorem lineage_restore (n : Node (t.without above i)) :
    n.restore.lineage = n.lineage.map restore := by
  refine lineage_induction (motive := fun n => n.restore.lineage = n.lineage.map restore) rfl ?_
    n.root_mem_lineage
  intro n p parent _ ih
  rw [lineage_of_parent? (parent?_restore_of_some parent), ih, lineage_of_parent? parent,
    List.map_cons]

theorem ancestors_restore (n : Node (t.without above i)) :
    n.restore.ancestors = n.ancestors.map restore :=
  List.tail_eq_of_cons_eq (n.lineage_restore)

theorem Before.restore {a b : Node (t.without above i)} (order : a.Before b) :
    a.restore.Before b.restore := by
  obtain ⟨up, j, k, less, left, right⟩ := order
  exact ⟨Path.restore above i up, _, _, Path.oldIndex_lt_oldIndex less,
    Path.restore_suffix left, Path.restore_suffix right⟩

theorem before_restore_iff {a b : Node (t.without above i)} :
    a.restore.Before b.restore ↔ a.Before b := by
  refine ⟨fun order => ?_, Before.restore⟩
  have apart := order.not_mem_lineage
  rw [lineage_restore, lineage_restore] at apart
  rcases lineage_or_before a b with higher | lower | before | after
  · exact absurd (List.mem_map_of_mem higher) apart.1
  · exact absurd (List.mem_map_of_mem lower) apart.2
  · exact before
  · exact absurd after.restore order.asymm

theorem onSide_restore_iff {direction : Direction} {a b : Node (t.without above i)} :
    OnSide direction a.restore b.restore ↔ OnSide direction a b := by
  cases direction <;> exact before_restore_iff

section Taken

variable {d : Node t} (at_d : d.path = i :: above)
include at_d

theorem not_mem_lineage_restore (n : Node (t.without above i)) : d ∉ n.restore.lineage := by
  rw [mem_lineage_iff, at_d]
  exact Path.not_suffix_restore n.path

/-- The nodes outside what was taken out are those that are left. -/
theorem exists_restore_iff (n : Node t) :
    (∃ m : Node (t.without above i), m.restore = n) ↔ d ∉ n.lineage := by
  constructor
  · rintro ⟨m, rfl⟩
    exact not_mem_lineage_restore at_d m
  · refine lineage_induction (motive := fun n => d ∉ n.lineage →
      ∃ m : Node (t.without above i), m.restore = n) (fun _ => ⟨root _, rfl⟩) ?_ n.root_mem_lineage
    intro n p parent _ ih outside
    obtain ⟨q, rfl⟩ := ih fun inside =>
      outside (mem_lineage_trans inside (parent_mem_lineage parent))
    obtain ⟨k, at_n⟩ := parent?_eq_some_iff.mp parent
    have other : k :: q.restore.path ≠ i :: above := by
      intro same
      exact outside (ext (at_d.trans (same.symm.trans at_n.symm)) ▸ self_mem_lineage _)
    obtain ⟨j, rfl⟩ := Path.exists_oldIndex other
    have valid : ((t.without above i).at? (j :: q.path)).isSome := by
      rw [Tree.at?_without, Option.isSome_map, Path.restore, ← path_restore, ← at_n]
      exact n.valid
    exact ⟨⟨j :: q.path, valid⟩, ext at_n.symm⟩

/-- A list of nodes that are left, seen where they were, is the list from which only the node
that was taken out is missing, if both go in one direction and have the same members. -/
theorem map_restore_eq_filter {direction : Direction} {left : List (Node (t.without above i))}
    {whole : List (Node t)} (ordered : left.Pairwise (OnSide direction))
    (ordered' : whole.Pairwise (OnSide direction))
    (members : ∀ n : Node (t.without above i), n ∈ left ↔ n.restore ∈ whole)
    (level : ∀ n ∈ whole, ∃ p : Node (t.without above i), n.parent? = some p.restore) :
    left.map restore = whole.filter (· ≠ d) := by
  have image : (left.map restore).Pairwise (OnSide direction) := by
    rw [List.pairwise_map]
    exact ordered.imp onSide_restore_iff.mpr
  refine image.eq_of_mem_iff (ordered'.filter _) fun n => ?_
  simp only [List.mem_map, List.mem_filter, ne_eq, decide_eq_true_eq, members]
  constructor
  · rintro ⟨m, member, rfl⟩
    refine ⟨member, fun same => not_mem_lineage_restore at_d m ?_⟩
    exact same ▸ self_mem_lineage _
  · rintro ⟨member, other⟩
    obtain ⟨p, parent⟩ := level n member
    have outside : d ∉ n.lineage := by
      rw [lineage_of_parent? parent, List.mem_cons, not_or]
      exact ⟨fun same => other same.symm, not_mem_lineage_restore at_d p⟩
    obtain ⟨m, rfl⟩ := (exists_restore_iff at_d n).mpr outside
    exact ⟨m, member, rfl⟩

theorem children_restore (n : Node (t.without above i)) :
    n.children.map restore = n.restore.children.filter (· ≠ d) := by
  refine map_restore_eq_filter at_d n.pairwise_children n.restore.pairwise_children ?_ ?_
  · intro m
    rw [mem_children_iff, mem_children_iff, parent?_restore, Option.map_eq_some_iff]
    constructor
    · exact fun parent => ⟨n, parent, rfl⟩
    · rintro ⟨p, parent, same⟩
      exact restore_injective same ▸ parent
  · exact fun m member => ⟨n, mem_children_iff.mp member⟩

theorem beside_restore (n : Node (t.without above i)) (direction : Direction) :
    (n.beside direction).map restore = (n.restore.beside direction).filter (· ≠ d) := by
  refine map_restore_eq_filter at_d (n.pairwise_beside direction)
    (n.restore.pairwise_beside direction) ?_ ?_
  · intro m
    rw [mem_beside_iff, mem_beside_iff, parent?_restore_eq_iff, onSide_restore_iff,
      restore_ne_root_iff]
  · intro m member
    obtain ⟨inner, same, _⟩ := beside_spec member
    obtain ⟨p, parent⟩ := parent?_isSome (restore_ne_root_iff.mp inner)
    exact ⟨p, same.trans (parent?_restore_of_some parent)⟩

end Taken

end Node

namespace Lens

variable {t : Tree} {above : Path} {i : Nat} (lens : Lens)

@[simp] theorem isSignificant_restore (n : Node (t.without above i)) :
    lens.isSignificant n.restore = lens.isSignificant n := by
  rw [isSignificant, isSignificant, Node.label_restore]

theorem parent_restore (n : Node (t.without above i)) :
    lens.parent n.restore = (lens.parent n).map Node.restore := by
  simp only [parent, Node.ancestors_restore, List.find?_map, Function.comp_def,
    Node.span_restore, isSignificant_restore]

/-- A search for a significant node does not miss a trivial one. -/
theorem find?_restore {d : Node t} (trivial : lens.isSignificant d = false)
    {left : List (Node (t.without above i))} {whole : List (Node t)}
    (kept : left.map Node.restore = whole.filter (· ≠ d)) :
    whole.find? lens.isSignificant = (left.find? lens.isSignificant).map Node.restore := by
  have passed : (fun n : Node t => decide (decide (n ≠ d) = true ∧ lens.isSignificant n = true)) =
      lens.isSignificant := by
    funext n
    by_cases same : n = d
    · simp [same, trivial]
    · simp [same]
  have skipped : (whole.filter (· ≠ d)).find? lens.isSignificant =
      whole.find? lens.isSignificant := by
    rw [List.find?_filter, passed]
  rw [← skipped, ← kept, List.find?_map]
  simp only [Function.comp_def, isSignificant_restore]

section Trivial

variable {d : Node t} (at_d : d.path = i :: above) (trivial : lens.isSignificant d = false)
include at_d trivial

theorem scan_restore (direction : Direction) (n : Node (t.without above i)) :
    lens.scan direction n.restore = (lens.scan direction n).map Node.restore := by
  rw [scan_eq_find?, scan_eq_find?]
  exact lens.find?_restore trivial (Node.beside_restore at_d n direction)

theorem sibling_restore (direction : Direction) (n : Node (t.without above i)) :
    lens.sibling direction n.restore = (lens.sibling direction n).map Node.restore := by
  rw [sibling, sibling, Node.lineage_restore, List.findSome?_map, List.map_findSome?]
  congr 1
  funext m
  exact lens.scan_restore at_d trivial direction m

theorem child_restore (direction : Direction) (n : Node (t.without above i)) :
    lens.child direction n.restore = (lens.child direction n).map Node.restore := by
  have kept := Node.children_restore at_d n
  cases direction with
  | forward => exact lens.find?_restore trivial kept
  | backward =>
    refine lens.find?_restore trivial ?_
    rw [List.map_reverse, kept, List.filter_reverse]

end Trivial

/-- Let a trivial node be taken out of a tree with its whole subtree. The nodes that are left
stand for those outside the subtree, with their labels and, but for the node itself, their
children; and from each of them the moves to siblings, with and without leaving the level, to
the parent and to the children lead to the same node as before, or nowhere as before. -/
theorem moves_ignore_trivial_subtree (lens : Lens) {d : Node t} (at_d : d.path = i :: above)
    (trivial : lens.isSignificant d = false) :
    (Function.Injective (Node.restore : Node (t.without above i) → Node t) ∧
      (∀ n : Node t, d ∉ n.lineage ↔ ∃ m : Node (t.without above i), m.restore = n) ∧
      ∀ m : Node (t.without above i), m.restore.label = m.label ∧
        m.children.map Node.restore = m.restore.children.filter (· ≠ d)) ∧
    ∀ (m : Node (t.without above i)) (direction : Direction),
      lens.scan direction m.restore = (lens.scan direction m).map Node.restore ∧
      lens.sibling direction m.restore = (lens.sibling direction m).map Node.restore ∧
      lens.parent m.restore = (lens.parent m).map Node.restore ∧
      lens.child direction m.restore = (lens.child direction m).map Node.restore := by
  refine ⟨⟨Node.restore_injective, fun n => (Node.exists_restore_iff at_d n).symm, fun m => ?_⟩,
    fun m direction => ?_⟩
  · exact ⟨m.label_restore, Node.children_restore at_d m⟩
  · exact ⟨lens.scan_restore at_d trivial direction m,
      lens.sibling_restore at_d trivial direction m, lens.parent_restore m,
      lens.child_restore at_d trivial direction m⟩

/-- Without the token that begins a block, its statement is the first child in place of the
second, and the move from the block to its first child leads to the statement as before. -/
theorem moves_ignore_begin_of_block :
    Lens.isSignificant ⟨.full, { anonymousTrivial := true }⟩
      (⟨[0, 0], rfl⟩ : Node Tree.callInBlock) = false ∧
    (⟨[0, 0], rfl⟩ : Node (Tree.callInBlock.without [0] 0)).restore = ⟨[1, 0], rfl⟩ ∧
    Lens.child ⟨.full, { anonymousTrivial := true }⟩ .forward
      (⟨[0], rfl⟩ : Node (Tree.callInBlock.without [0] 0)) = some ⟨[0, 0], rfl⟩ ∧
    Lens.child ⟨.full, { anonymousTrivial := true }⟩ .forward
      (⟨[0], rfl⟩ : Node (Tree.callInBlock.without [0] 0)).restore = some ⟨[1, 0], rfl⟩ := by
  have trivial : Lens.isSignificant ⟨.full, { anonymousTrivial := true }⟩
    (⟨[0, 0], rfl⟩ : Node Tree.callInBlock) = false := by decide
  have restored : (⟨[0, 0], rfl⟩ : Node (Tree.callInBlock.without [0] 0)).restore =
    ⟨[1, 0], rfl⟩ := by decide
  have statement : Lens.child ⟨.full, { anonymousTrivial := true }⟩ .forward
    (⟨[0], rfl⟩ : Node (Tree.callInBlock.without [0] 0)) = some ⟨[0, 0], rfl⟩ := by decide
  refine ⟨trivial, restored, statement, ?_⟩
  obtain ⟨_, _, _, child⟩ := (moves_ignore_trivial_subtree _ rfl trivial).2
    (⟨[0], rfl⟩ : Node (Tree.callInBlock.without [0] 0)) .forward
  rw [child, statement, Option.map_some, restored]

end Lens

end TreeNav
