import TreeNav.Tree.Node

/-!
How the nodes of a tree lie to each other. Of two nodes one is above the other, or they
part somewhere above both into an earlier and a later sibling; the paths decide which.
-/
namespace TreeNav

namespace Node

variable {t : Tree}

@[simp] theorem path_root : (root t).path = [] := rfl

theorem isRoot_iff {n : Node t} : n.isRoot = true ↔ n = root t := by
  constructor
  · intro empty
    exact ext (List.isEmpty_iff.mp empty)
  · rintro rfl
    rfl

theorem isRoot_eq_false_iff {n : Node t} : n.isRoot = false ↔ n ≠ root t := by
  rw [← Bool.not_eq_true, isRoot_iff]

/-- Every part of a path that reaches up to the root is the path of a node. -/
theorem exists_of_suffix {n : Node t} {path : Path} (part : path <:+ n.path) :
    ∃ a : Node t, a.path = path := by
  obtain ⟨below, split⟩ := part
  have valid := n.valid
  rw [← split, Tree.at?_append] at valid
  exact ⟨⟨path, Option.isSome_of_isSome_bind valid⟩, rfl⟩

theorem parent?_eq_some_iff {n p : Node t} : n.parent? = some p ↔ ∃ i, n.path = i :: p.path := by
  obtain ⟨path, valid⟩ := n
  cases path with
  | nil => simp [parent?]
  | cons i up =>
    simp only [parent?, Option.some.injEq, List.cons.injEq]
    constructor
    · rintro rfl
      exact ⟨i, rfl, rfl⟩
    · rintro ⟨_, _, same⟩
      exact ext same

theorem ancestors_of_parent? {n p : Node t} (above : n.parent? = some p) :
    n.ancestors = p.lineage := by
  obtain ⟨path, valid⟩ := n
  cases path with
  | nil => cases above
  | cons i up =>
    cases above
    rfl

theorem lineage_of_parent? {n p : Node t} (above : n.parent? = some p) :
    n.lineage = n :: p.lineage := by
  rw [lineage, ancestors_of_parent? above]

@[simp] theorem ancestors_root : (root t).ancestors = [] := rfl

@[simp] theorem lineage_root : (root t).lineage = [root t] := rfl

theorem parent?_isSome {n : Node t} (inner : n ≠ root t) : ∃ p, n.parent? = some p := by
  obtain ⟨path, valid⟩ := n
  cases path with
  | nil => exact absurd rfl inner
  | cons i up => exact ⟨_, rfl⟩

theorem mem_lineage_iff {a n : Node t} : a ∈ n.lineage ↔ a.path <:+ n.path := by
  obtain ⟨path, valid⟩ := n
  induction path with
  | nil =>
    have top : (⟨[], valid⟩ : Node t).lineage = [root t] := rfl
    rw [top, List.mem_singleton, List.suffix_nil]
    exact ⟨fun same => same ▸ rfl, fun same => ext same⟩
  | cons i up ih =>
    rw [lineage_of_parent? (p := ⟨up, Tree.at?_isSome_of_cons valid⟩) rfl, List.mem_cons, ih,
      List.suffix_cons_iff]
    exact or_congr_left ⟨fun same => same ▸ rfl, fun same => ext same⟩

theorem self_mem_lineage (n : Node t) : n ∈ n.lineage := List.mem_cons_self

theorem root_mem_lineage (n : Node t) : root t ∈ n.lineage :=
  mem_lineage_iff.mpr (List.nil_suffix ..)

theorem mem_lineage_trans {a b c : Node t} (outer : a ∈ b.lineage) (inner : b ∈ c.lineage) :
    a ∈ c.lineage :=
  mem_lineage_iff.mpr ((mem_lineage_iff.mp outer).trans (mem_lineage_iff.mp inner))

theorem parent_mem_lineage {n p : Node t} (above : n.parent? = some p) : p ∈ n.lineage := by
  rw [lineage_of_parent? above]
  exact List.mem_cons_of_mem _ p.self_mem_lineage

theorem mem_lineage_antisymm {a b : Node t} (ab : a ∈ b.lineage) (ba : b ∈ a.lineage) : a = b := by
  rw [mem_lineage_iff] at ab ba
  exact ext (ab.eq_of_length (Nat.le_antisymm ab.length_le ba.length_le))

/-- Two nodes above the same node are above each other in one way or the other. -/
theorem mem_lineage_total {a b n : Node t} (first : a ∈ n.lineage) (second : b ∈ n.lineage) :
    a ∈ b.lineage ∨ b ∈ a.lineage := by
  simp only [mem_lineage_iff] at *
  exact List.suffix_or_suffix_of_suffix first second

/-- What holds of a node and passes from parents to children holds of everything below. -/
theorem lineage_induction {motive : Node t → Prop} {top : Node t} (start : motive top)
    (step : ∀ n p, n.parent? = some p → top ∈ p.lineage → motive p → motive n)
    {n : Node t} (above : top ∈ n.lineage) : motive n := by
  obtain ⟨below, split⟩ := mem_lineage_iff.mp above
  induction below generalizing n with
  | nil => exact (ext split : top = n) ▸ start
  | cons i rest ih =>
    have part : rest ++ top.path <:+ n.path := ⟨[i], by simpa using split⟩
    obtain ⟨p, at_p⟩ := exists_of_suffix part
    have parent : n.parent? = some p := parent?_eq_some_iff.mpr ⟨i, by rw [at_p]; exact split.symm⟩
    have reach : top ∈ p.lineage := mem_lineage_iff.mpr ⟨rest, at_p.symm⟩
    exact step n p parent reach (ih reach at_p.symm)

/-- What holds of the root and passes from parents to children holds of every node. -/
theorem parent_induction {motive : Node t → Prop} (root : motive (root t))
    (child : ∀ n p, n.parent? = some p → motive p → motive n) (n : Node t) : motive n :=
  lineage_induction root (fun n p parent _ => child n p parent) n.root_mem_lineage

theorem pairwise_ancestors (n : Node t) : n.ancestors.Pairwise fun a b => b ∈ a.ancestors := by
  induction n using parent_induction with
  | root => exact List.Pairwise.nil
  | child n p parent ih =>
    rw [ancestors_of_parent? parent, lineage, List.pairwise_cons]
    exact ⟨fun b above => above, ih⟩

/-- The node below `top` on the way down to `n`. -/
theorem exists_child_toward {top n : Node t} (above : top ∈ n.lineage) (different : n ≠ top) :
    ∃ c : Node t, c.parent? = some top ∧ c ∈ n.lineage := by
  refine lineage_induction (motive := fun n => n ≠ top → ∃ c : Node t, c.parent? = some top ∧
    c ∈ n.lineage) (fun no => absurd rfl no) ?_ above different
  intro n p parent reach ih _
  by_cases same : p = top
  · exact ⟨n, same ▸ parent, n.self_mem_lineage⟩
  · obtain ⟨c, below_top, over_p⟩ := ih same
    exact ⟨c, below_top, mem_lineage_trans over_p (parent_mem_lineage parent)⟩

theorem mem_ancestors_iff {a n : Node t} : a ∈ n.ancestors ↔ a ∈ n.lineage ∧ a ≠ n := by
  by_cases top : n = root t
  · subst top
    simp
  · obtain ⟨p, parent⟩ := parent?_isSome top
    obtain ⟨i, at_n⟩ := parent?_eq_some_iff.mp parent
    rw [lineage_of_parent? parent, ancestors_of_parent? parent, List.mem_cons]
    constructor
    · intro member
      refine ⟨.inr member, ?_⟩
      rintro rfl
      have longer := (mem_lineage_iff.mp member).length_le
      rw [at_n, List.length_cons] at longer
      omega
    · rintro ⟨same | member, different⟩
      · exact absurd same different
      · exact member

end Node

/-- Two paths lead one through the other, or part at some node. -/
theorem Path.comparable_or_part (a b : Path) :
    a <:+ b ∨ b <:+ a ∨ ∃ up i j, i ≠ j ∧ (i :: up) <:+ a ∧ (j :: up) <:+ b := by
  induction a with
  | nil => exact .inl (List.nil_suffix ..)
  | cons x rest ih =>
    rcases ih with through | back | ⟨up, i, j, different, left, right⟩
    · obtain ⟨below, split⟩ := through
      rcases List.eq_nil_or_concat below with rfl | ⟨front, y, rfl⟩
      · exact .inr (.inl ⟨[x], by simp [← split]⟩)
      · have right : (y :: rest) <:+ b := ⟨front, by simpa using split⟩
        by_cases same : x = y
        · exact .inl (same ▸ right)
        · exact .inr (.inr ⟨rest, x, y, same, List.suffix_refl _, right⟩)
    · exact .inr (.inl (back.trans (List.suffix_cons ..)))
    · exact .inr (.inr ⟨up, i, j, different, left.trans (List.suffix_cons ..), right⟩)

/-- Two parts of one path that are as long as each other are the same. -/
theorem Path.eq_of_suffix {path a b : Path} (left : a <:+ path) (right : b <:+ path)
    (same : a.length = b.length) : a = b :=
  (List.suffix_of_suffix_length_le left right (Nat.le_of_eq same)).eq_of_length same

namespace Node

variable {t : Tree}

/-- The node `a` with all below it comes before `b` with all below it: they lie in an
earlier and a later child of one node. -/
def Before (a b : Node t) : Prop :=
  ∃ up i j, i < j ∧ (i :: up) <:+ a.path ∧ (j :: up) <:+ b.path

theorem lineage_or_before (a b : Node t) :
    a ∈ b.lineage ∨ b ∈ a.lineage ∨ a.Before b ∨ b.Before a := by
  rw [mem_lineage_iff, mem_lineage_iff]
  rcases Path.comparable_or_part a.path b.path with through | back | ⟨up, i, j, ne, left, right⟩
  · exact .inl through
  · exact .inr (.inl back)
  · rcases Nat.lt_or_gt_of_ne ne with less | greater
    · exact .inr (.inr (.inl ⟨up, i, j, less, left, right⟩))
    · exact .inr (.inr (.inr ⟨up, j, i, greater, right, left⟩))

/-- The two siblings in which nodes that come one before the other lie. -/
theorem Before.siblings {a b : Node t} (order : a.Before b) :
    ∃ (p c d : Node t) (i j : Nat), i < j ∧ c.path = i :: p.path ∧ d.path = j :: p.path ∧
      c ∈ a.lineage ∧ d ∈ b.lineage := by
  obtain ⟨up, i, j, less, left, right⟩ := order
  obtain ⟨c, at_c⟩ := exists_of_suffix left
  obtain ⟨d, at_d⟩ := exists_of_suffix right
  obtain ⟨p, at_p⟩ := exists_of_suffix ((List.suffix_cons i up).trans left)
  exact ⟨p, c, d, i, j, less, by rw [at_c, at_p], by rw [at_d, at_p],
    mem_lineage_iff.mpr (at_c ▸ left), mem_lineage_iff.mpr (at_d ▸ right)⟩

theorem before_of_siblings {c d p : Node t} {i j : Nat} (less : i < j) (at_c : c.path = i :: p.path)
    (at_d : d.path = j :: p.path) : c.Before d :=
  ⟨p.path, i, j, less, at_c ▸ List.suffix_refl _, at_d ▸ List.suffix_refl _⟩

theorem Before.mono {a b c d : Node t} (order : a.Before b) (left : a ∈ c.lineage)
    (right : b ∈ d.lineage) : c.Before d := by
  obtain ⟨up, i, j, less, at_a, at_b⟩ := order
  exact ⟨up, i, j, less, at_a.trans (mem_lineage_iff.mp left),
    at_b.trans (mem_lineage_iff.mp right)⟩

theorem Before.asymm {a b : Node t} (order : a.Before b) : ¬ b.Before a := by
  obtain ⟨up, i, j, less, left, right⟩ := order
  rintro ⟨up', i', j', less', left', right'⟩
  -- The two pairs of siblings are at one level, or one of them lies above the other.
  rcases Nat.lt_trichotomy up.length up'.length with higher | level | lower
  · have over_a := List.suffix_of_suffix_length_le left ((List.suffix_cons ..).trans right') higher
    have over_b := List.suffix_of_suffix_length_le right ((List.suffix_cons ..).trans left') higher
    have same := Path.eq_of_suffix over_a over_b (by simp)
    simp only [List.cons.injEq, and_true] at same
    omega
  · have same := Path.eq_of_suffix left right' (by simp [level])
    have same' := Path.eq_of_suffix right left' (by simp [level])
    simp only [List.cons.injEq] at same same'
    omega
  · have over_a := List.suffix_of_suffix_length_le right' ((List.suffix_cons ..).trans left) lower
    have over_b := List.suffix_of_suffix_length_le left' ((List.suffix_cons ..).trans right) lower
    have same := Path.eq_of_suffix over_a over_b (by simp)
    simp only [List.cons.injEq, and_true] at same
    omega

theorem Before.not_mem_lineage {a b : Node t} (order : a.Before b) :
    a ∉ b.lineage ∧ b ∉ a.lineage := by
  constructor
  · intro above
    have self := order.mono above b.self_mem_lineage
    exact self.asymm self
  · intro below
    have self := order.mono a.self_mem_lineage below
    exact self.asymm self

theorem child?_eq_some_iff {n c : Node t} {i : Nat} :
    n.child? i = some c ↔ c.path = i :: n.path := by
  unfold child?
  split
  · rename_i inside
    rw [Option.some.injEq]
    exact ⟨fun same => same ▸ rfl, fun same => (ext same).symm⟩
  · rename_i outside
    simp only [reduceCtorEq, false_iff]
    intro at_c
    have valid := c.valid
    rw [at_c, Tree.at?_cons, at?_path] at valid
    exact outside (by simpa [childCount] using valid)

theorem getElem?_children (n : Node t) (i : Nat) : n.children[i]? = n.child? i := by
  rw [children, List.getElem?_ofFn]
  rfl

theorem length_children (n : Node t) : n.children.length = n.childCount := by
  simp [children]

theorem mem_children_iff {n c : Node t} : c ∈ n.children ↔ c.parent? = some n := by
  simp only [List.mem_iff_getElem?, getElem?_children, child?_eq_some_iff, parent?_eq_some_iff]

theorem subtree_of_child {n c : Node t} {i : Nat} (at_c : c.path = i :: n.path) :
    n.subtree.children[i]? = some c.subtree := by
  have found := c.at?_path
  rwa [at_c, Tree.at?_cons, at?_path] at found

theorem sizeOf_subtree_lt {n c : Node t} (parent : c.parent? = some n) :
    sizeOf c.subtree < sizeOf n.subtree := by
  obtain ⟨i, at_c⟩ := parent?_eq_some_iff.mp parent
  have member := List.mem_of_getElem? (subtree_of_child at_c)
  cases whole : n.subtree with
  | node label children =>
    rw [whole] at member
    have smaller := List.sizeOf_lt_of_mem member
    simp only [Tree.children_node, Tree.node.sizeOf_spec] at *
    omega

/-- The first of the children from an index on is the child with that index. -/
theorem exists_child_of_drop {n : Node t} {i : Nat} {s : Tree} {others : List Tree}
    (left : n.subtree.children.drop i = s :: others) :
    ∃ c : Node t, c.path = i :: n.path ∧ c.subtree = s ∧
      n.subtree.children.drop (i + 1) = others := by
  have here : n.subtree.children[i]? = some s := by
    rw [← List.head?_drop, left]
    rfl
  have inside : i < n.childCount := (List.getElem?_eq_some_iff.mp here).1
  have found := subtree_of_child (n := n) (c := n.child ⟨i, inside⟩) rfl
  rw [here, Option.some.injEq] at found
  refine ⟨n.child ⟨i, inside⟩, rfl, found.symm, ?_⟩
  rw [← List.tail_drop, left]
  rfl

end Node

end TreeNav
