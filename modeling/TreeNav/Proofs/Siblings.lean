import TreeNav.Locate.Sibling
import TreeNav.Proofs.WellFormed

/-!
Moves along the siblings. The walk from sibling to sibling is a search through the list of
siblings on one side, nearest first, in whichever way a view finds the neighbours. Leaving
a level that has none gives the nearest significant node on that side of the whole tree
whose parent is above the start.
-/
namespace TreeNav

/-- The other direction. -/
def Direction.opposite : Direction → Direction
  | forward => backward
  | backward => forward

namespace Node

variable {t : Tree}

/-- The siblings on one side, nearest first. -/
def beside : Node t → Direction → List (Node t)
  | ⟨[], _⟩, _ => []
  | ⟨i :: up, h⟩, .forward => (children ⟨up, Tree.at?_isSome_of_cons h⟩).drop (i + 1)
  | ⟨i :: up, h⟩, .backward => ((children ⟨up, Tree.at?_isSome_of_cons h⟩).take i).reverse

/-- The node `b` with all below it lies on the given side of `a` with all below it. -/
def OnSide : Direction → Node t → Node t → Prop
  | .forward, a, b => a.Before b
  | .backward, a, b => b.Before a

theorem OnSide.mono {direction : Direction} {a b c d : Node t} (side : OnSide direction a b)
    (left : a ∈ c.lineage) (right : b ∈ d.lineage) : OnSide direction c d := by
  cases direction with
  | forward => exact Before.mono side left right
  | backward => exact Before.mono side right left

theorem OnSide.asymm {direction : Direction} {a b : Node t} (side : OnSide direction a b) :
    ¬ OnSide direction b a := by
  cases direction <;> exact Before.asymm side

theorem onSide_opposite {direction : Direction} {a b : Node t} :
    OnSide direction.opposite a b ↔ OnSide direction b a := by
  cases direction <;> rfl

theorem OnSide.not_mem_lineage {direction : Direction} {a b : Node t}
    (side : OnSide direction a b) : b ∉ a.lineage := by
  cases direction with
  | forward => exact (Before.not_mem_lineage side).2
  | backward => exact (Before.not_mem_lineage side).1

instance (direction : Direction) : Std.Irrefl (OnSide (t := t) direction) :=
  ⟨fun _ side => side.asymm side⟩

instance (direction : Direction) : Std.Antisymm (OnSide (t := t) direction) :=
  ⟨fun _ _ side back => absurd back side.asymm⟩

@[simp] theorem beside_root (direction : Direction) : (root t).beside direction = [] := by
  cases direction <;> rfl

theorem beside_forward {n p : Node t} {i : Nat} (at_n : n.path = i :: p.path) :
    n.beside .forward = p.children.drop (i + 1) := by
  obtain ⟨path, valid⟩ := n
  cases at_n
  rfl

theorem beside_backward {n p : Node t} {i : Nat} (at_n : n.path = i :: p.path) :
    n.beside .backward = (p.children.take i).reverse := by
  obtain ⟨path, valid⟩ := n
  cases at_n
  rfl

theorem getElem?_children_eq_some_iff {n c : Node t} {i : Nat} :
    n.children[i]? = some c ↔ c.path = i :: n.path := by
  rw [getElem?_children, child?_eq_some_iff]

theorem lt_length_children {n c : Node t} {i : Nat} (at_c : c.path = i :: n.path) :
    i < n.children.length :=
  (List.getElem?_eq_some_iff.mp (getElem?_children_eq_some_iff.mpr at_c)).1

theorem children_getElem {n c : Node t} {i : Nat} (at_c : c.path = i :: n.path)
    (inside : i < n.children.length) : n.children[i] = c := by
  have found := getElem?_children_eq_some_iff.mpr at_c
  rwa [List.getElem?_eq_getElem inside, Option.some.injEq] at found

/-- The neighbour on one side heads the list of siblings there, and the rest of the list is
what lies beside the neighbour. -/
theorem beside_eq_cons {n m : Node t} {direction : Direction} {rest : List (Node t)}
    (split : n.beside direction = m :: rest) : m.beside direction = rest := by
  by_cases top : n = root t
  · subst top
    simp at split
  · obtain ⟨p, parent⟩ := parent?_isSome top
    obtain ⟨i, at_n⟩ := parent?_eq_some_iff.mp parent
    cases direction with
    | forward =>
      rw [beside_forward at_n] at split
      have head : p.children[i + 1]? = some m := by
        rw [← List.head?_drop, split]
        rfl
      rw [beside_forward (getElem?_children_eq_some_iff.mp head), ← List.tail_drop, split]
      rfl
    | backward =>
      rw [beside_backward at_n] at split
      cases i with
      | zero => simp at split
      | succ k =>
        have inside := lt_length_children at_n
        rw [List.take_succ_eq_append_getElem (by omega), List.reverse_append] at split
        simp only [List.reverse_singleton, List.singleton_append, List.cons.injEq] at split
        obtain ⟨same, others⟩ := split
        have at_m : m.path = k :: p.path := by
          rw [← same]
          exact getElem?_children_eq_some_iff.mp (List.getElem?_eq_getElem (by omega))
        rw [beside_backward at_m, others]

theorem mem_beside_forward {n m p : Node t} {i : Nat} (at_n : n.path = i :: p.path) :
    m ∈ n.beside .forward ↔ ∃ j, i < j ∧ m.path = j :: p.path := by
  rw [beside_forward at_n, List.mem_iff_getElem?]
  simp only [List.getElem?_drop, getElem?_children_eq_some_iff]
  constructor
  · rintro ⟨k, at_m⟩
    exact ⟨i + 1 + k, by omega, at_m⟩
  · rintro ⟨j, less, at_m⟩
    refine ⟨j - (i + 1), ?_⟩
    rw [at_m, Nat.add_sub_cancel' less]

theorem mem_beside_backward {n m p : Node t} {i : Nat} (at_n : n.path = i :: p.path) :
    m ∈ n.beside .backward ↔ ∃ j, j < i ∧ m.path = j :: p.path := by
  rw [beside_backward at_n, List.mem_reverse, List.mem_iff_getElem?]
  simp only [List.getElem?_take]
  constructor
  · rintro ⟨j, found⟩
    split at found
    · rename_i less
      exact ⟨j, less, getElem?_children_eq_some_iff.mp found⟩
    · cases found
  · rintro ⟨j, less, at_m⟩
    refine ⟨j, ?_⟩
    rw [if_pos less]
    exact getElem?_children_eq_some_iff.mpr at_m

/-- A sibling on one side has the same parent and lies on that side. -/
theorem beside_spec {n m : Node t} {direction : Direction} (member : m ∈ n.beside direction) :
    n ≠ root t ∧ m.parent? = n.parent? ∧ OnSide direction n m := by
  by_cases top : n = root t
  · subst top
    simp at member
  · obtain ⟨p, parent⟩ := parent?_isSome top
    obtain ⟨i, at_n⟩ := parent?_eq_some_iff.mp parent
    refine ⟨top, ?_⟩
    rw [parent]
    cases direction with
    | forward =>
      obtain ⟨j, less, at_m⟩ := (mem_beside_forward at_n).mp member
      exact ⟨parent?_eq_some_iff.mpr ⟨j, at_m⟩, before_of_siblings less at_n at_m⟩
    | backward =>
      obtain ⟨j, less, at_m⟩ := (mem_beside_backward at_n).mp member
      exact ⟨parent?_eq_some_iff.mpr ⟨j, at_m⟩, before_of_siblings less at_m at_n⟩

/-- Two children of a node are one or lie beside each other. -/
theorem beside_or_eq {c d p : Node t} (over_c : c.parent? = some p) (over_d : d.parent? = some p) :
    c ∈ d.beside .backward ∨ c = d ∨ c ∈ d.beside .forward := by
  obtain ⟨i, at_c⟩ := parent?_eq_some_iff.mp over_c
  obtain ⟨j, at_d⟩ := parent?_eq_some_iff.mp over_d
  rcases Nat.lt_trichotomy i j with less | rfl | greater
  · exact .inl ((mem_beside_backward at_d).mpr ⟨i, less, at_c⟩)
  · exact .inr (.inl (ext (at_c.trans at_d.symm)))
  · exact .inr (.inr ((mem_beside_forward at_d).mpr ⟨i, greater, at_c⟩))

/-- Of two children of a node one lies beside the other in a direction or against it. -/
theorem beside_or_eq_or_opposite {c d p : Node t} (direction : Direction)
    (over_c : c.parent? = some p) (over_d : d.parent? = some p) :
    c ∈ d.beside direction ∨ c = d ∨ c ∈ d.beside direction.opposite := by
  rcases beside_or_eq over_c over_d with before | same | after
  · cases direction with
    | forward => exact .inr (.inr before)
    | backward => exact .inl before
  · exact .inr (.inl same)
  · cases direction with
    | forward => exact .inl after
    | backward => exact .inr (.inr after)

/-- What lies beside a node is what has the same parent and lies on that side. -/
theorem mem_beside_iff {n m : Node t} {direction : Direction} :
    m ∈ n.beside direction ↔ n ≠ root t ∧ m.parent? = n.parent? ∧ OnSide direction n m := by
  constructor
  · exact beside_spec
  · rintro ⟨inner, same, side⟩
    obtain ⟨p, parent⟩ := parent?_isSome inner
    rcases beside_or_eq_or_opposite direction (same.trans parent) parent with
      beside | rfl | against
    · exact beside
    · exact absurd side side.asymm
    · exact absurd (onSide_opposite.mp (beside_spec against).2.2) side.asymm

/-- A node lies beside its siblings, on their other side. -/
theorem mem_beside_opposite {n m : Node t} {direction : Direction}
    (beside : m ∈ n.beside direction) : n ∈ m.beside direction.opposite := by
  obtain ⟨inner, same, side⟩ := beside_spec beside
  refine mem_beside_iff.mpr ⟨?_, same.symm, onSide_opposite.mpr side⟩
  rintro rfl
  obtain ⟨p, parent⟩ := parent?_isSome inner
  rw [← same] at parent
  cases parent

theorem pairwise_children (n : Node t) : n.children.Pairwise (OnSide .forward) := by
  rw [List.pairwise_iff_getElem]
  intro i j inside inside' less
  have at_i := getElem?_children_eq_some_iff.mp (List.getElem?_eq_getElem inside)
  have at_j := getElem?_children_eq_some_iff.mp (List.getElem?_eq_getElem inside')
  exact before_of_siblings less at_i at_j

/-- Further down the list is further away. -/
theorem pairwise_beside (n : Node t) (direction : Direction) :
    (n.beside direction).Pairwise (OnSide direction) := by
  generalize split : n.beside direction = siblings
  induction siblings generalizing n with
  | nil => exact .nil
  | cons m rest ih =>
    have others := beside_eq_cons split
    refine List.pairwise_cons.mpr ⟨?_, ih m others⟩
    intro q member
    rw [← others] at member
    exact (beside_spec member).2.2

theorem length_beside_le (n : Node t) (direction : Direction) :
    (n.beside direction).length ≤ n.siblingCount := by
  by_cases top : n = root t
  · subst top
    simp
  · obtain ⟨p, parent⟩ := parent?_isSome top
    obtain ⟨i, at_n⟩ := parent?_eq_some_iff.mp parent
    have count : n.siblingCount = p.children.length := by
      rw [siblingCount, parent, length_children]
      rfl
    rw [count]
    cases direction with
    | forward =>
      rw [beside_forward at_n, List.length_drop]
      omega
    | backward =>
      rw [beside_backward at_n, List.length_reverse, List.length_take]
      omega

theorem placeAmongSiblings?_eq {n p : Node t} {i : Nat} (at_n : n.path = i :: p.path) :
    n.placeAmongSiblings? = some (p, i) := by
  have parent : n.parent? = some p := parent?_eq_some_iff.mpr ⟨i, at_n⟩
  have inside := lt_length_children at_n
  have place : p.children.findIdx? (· == n) = some i := by
    rw [List.findIdx?_eq_some_iff_getElem]
    refine ⟨inside, ?_, ?_⟩
    · rw [children_getElem at_n inside, beq_self_eq_true]
    · intro j less
      have at_j := getElem?_children_eq_some_iff.mp
        (List.getElem?_eq_getElem (Nat.lt_trans less inside))
      intro same
      rw [beq_iff_eq.mp same, at_n] at at_j
      injection at_j with same_index
      omega
  simp only [placeAmongSiblings?, parent, place, Option.pure_def, Option.bind_eq_bind,
    Option.bind_some]

end Node

theorem View.step_root {t : Tree} (view : View) (direction : Direction) :
    view.step direction (Node.root t) = none := by
  cases view <;> cases direction <;> rfl

/-- Both views find the neighbour at the head of the list of siblings. -/
theorem View.step_eq_head? {t : Tree} (view : View) (direction : Direction) (n : Node t) :
    view.step direction n = (n.beside direction).head? := by
  by_cases top : n = Node.root t
  · subst top
    rw [View.step_root, Node.beside_root, List.head?_nil]
  · obtain ⟨p, parent⟩ := Node.parent?_isSome top
    obtain ⟨i, at_n⟩ := Node.parent?_eq_some_iff.mp parent
    have inside := Node.lt_length_children at_n
    have forward : (n.beside .forward).head? = p.child? (i + 1) := by
      rw [Node.beside_forward at_n, List.head?_drop, Node.getElem?_children]
    have backward : (n.beside .backward).head? = if i = 0 then none else p.child? (i - 1) := by
      rw [Node.beside_backward at_n, List.head?_reverse]
      cases i with
      | zero => simp
      | succ k =>
        rw [List.take_succ_eq_append_getElem (by omega), List.getLast?_concat, if_neg (by omega),
          Nat.add_sub_cancel, ← Node.getElem?_children, List.getElem?_eq_getElem (by omega)]
    cases view with
    | full =>
      obtain ⟨path, valid⟩ := n
      cases at_n
      cases direction with
      | forward => exact forward.symm
      | backward =>
        rw [backward]
        cases i <;> rfl
    | bare =>
      have place := Node.placeAmongSiblings?_eq at_n
      cases direction with
      | forward =>
        rw [forward, View.step, Node.nextBySearch?, place]
        rfl
      | backward =>
        rw [backward, View.step, Node.prevBySearch?, place]
        rfl

namespace Lens

variable {t : Tree} (lens : Lens)

theorem scanFor_eq_find? (direction : Direction) (fuel : Nat) (n : Node t)
    (enough : (n.beside direction).length ≤ fuel) :
    lens.scanFor direction fuel n = (n.beside direction).find? lens.isSignificant := by
  induction fuel generalizing n with
  | zero =>
    rw [List.length_eq_zero_iff.mp (Nat.le_zero.mp enough)]
    rfl
  | succ fuel ih =>
    rw [scanFor, View.step_eq_head?]
    cases split : n.beside direction with
    | nil => rfl
    | cons m rest =>
      have others := Node.beside_eq_cons split
      rw [split, List.length_cons] at enough
      have later := ih m (by rw [others]; omega)
      rw [others] at later
      cases stop : lens.isSignificant m with
      | true => simp [stop]
      | false => simpa [stop] using later

theorem scan_eq_find? (direction : Direction) (n : Node t) :
    lens.scan direction n = (n.beside direction).find? lens.isSignificant :=
  lens.scanFor_eq_find? direction _ n (n.length_beside_le direction)

@[simp] theorem sibling_root (direction : Direction) :
    lens.sibling direction (Node.root t) = none := by
  rw [sibling, Node.lineage_root, List.findSome?_cons, scan_eq_find?, Node.beside_root]
  rfl

theorem sibling_of_parent? (direction : Direction) {n p : Node t} (parent : n.parent? = some p) :
    lens.sibling direction n =
      ((n.beside direction).find? lens.isSignificant).or (lens.sibling direction p) := by
  rw [sibling, Node.lineage_of_parent? parent, List.findSome?_cons, scan_eq_find?]
  cases (n.beside direction).find? lens.isSignificant <;> rfl

theorem sibling_eq_none_iff (direction : Direction) (n : Node t) :
    lens.sibling direction n = none ↔
      ∀ a ∈ n.lineage, ∀ q ∈ a.beside direction, lens.isSignificant q = false := by
  simp only [sibling, List.findSome?_eq_none_iff, scan_eq_find?, List.find?_eq_none,
    Bool.not_eq_true]

theorem sibling_spec (direction : Direction) {n m : Node t}
    (found : lens.sibling direction n = some m) :
    lens.isSignificant m = true ∧ ∃ a ∈ n.lineage, m ∈ a.beside direction := by
  obtain ⟨a, above, scanned⟩ := List.exists_of_findSome?_eq_some found
  rw [scan_eq_find?] at scanned
  exact ⟨List.find?_some scanned, a, above, List.mem_of_find?_eq_some scanned⟩

/-- Of all significant nodes beside the start or beside a node above it, the move goes to
the nearest: the others lie further on the same side. -/
theorem sibling_nearest (direction : Direction) {n m : Node t}
    (found : lens.sibling direction n = some m) {a q : Node t} (above : a ∈ n.lineage)
    (beside : q ∈ a.beside direction) (stop : lens.isSignificant q = true) :
    q = m ∨ Node.OnSide direction m q := by
  -- From the root down to the start: each level below is nearer than all above it.
  refine Node.lineage_induction (motive := fun n => lens.sibling direction n = some m →
    a ∈ n.lineage → q = m ∨ Node.OnSide direction m q) ?_ ?_ n.root_mem_lineage found above
  · intro found
    rw [sibling_root] at found
    cases found
  · intro n p parent _ ih found above
    rw [sibling_of_parent? lens direction parent] at found
    rw [Node.lineage_of_parent? parent, List.mem_cons] at above
    cases scanned : (n.beside direction).find? lens.isSignificant with
    | none =>
      rw [scanned, Option.none_or] at found
      rcases above with rfl | above
      · exact absurd stop (List.find?_eq_none.mp scanned q beside)
      · exact ih found above
    | some first =>
      rw [scanned, Option.some_or, Option.some.injEq] at found
      subst found
      rcases above with rfl | above
      · exact rel_of_find?_of_pairwise (a.pairwise_beside direction) scanned beside stop
      · -- The move stays below `p`, while `q` is beside a node above.
        have within := (Node.beside_spec (List.mem_of_find?_eq_some scanned)).2.1
        rw [parent] at within
        have under := Node.mem_lineage_trans above (Node.parent_mem_lineage within)
        exact .inr ((Node.beside_spec beside).2.2.mono under q.self_mem_lineage)

end Lens

namespace Tree.WellFormed

variable {t : Tree} {lens : Lens} {n m : Node t}

theorem stop_le_start_of_beside_forward (wf : t.WellFormed) (after : m ∈ n.beside .forward) :
    n.span.stop ≤ m.span.start :=
  wf.stop_le_start_of_before (Node.beside_spec after).2.2

theorem stop_le_start_of_beside_backward (wf : t.WellFormed) (before : m ∈ n.beside .backward) :
    m.span.stop ≤ n.span.start :=
  wf.stop_le_start_of_before (Node.beside_spec before).2.2

theorem sibling_forward_after (wf : t.WellFormed) (found : lens.sibling .forward n = some m) :
    n.span.stop ≤ m.span.start := by
  obtain ⟨_, a, above, beside⟩ := lens.sibling_spec _ found
  have cover := (Span.covers_iff ..).mp (wf.covers_of_mem_lineage above)
  have apart := wf.stop_le_start_of_beside_forward beside
  omega

theorem sibling_backward_before (wf : t.WellFormed) (found : lens.sibling .backward n = some m) :
    m.span.stop ≤ n.span.start := by
  obtain ⟨_, a, above, beside⟩ := lens.sibling_spec _ found
  have cover := (Span.covers_iff ..).mp (wf.covers_of_mem_lineage above)
  have apart := wf.stop_le_start_of_beside_backward beside
  omega

end Tree.WellFormed

end TreeNav
