import TreeNav.Proofs.Preorder
import TreeNav.Proofs.Siblings

/-!
What a move to a sibling means. Along one level and up through the levels, it is one choice in the
whole tree: forward, the first in pre-order of the significant nodes after the start that have
their parent around the start, and backward the last of those before it. The move passes over
nothing but trivial nodes, so the move the other way leads back to where the level was left, and
the scans of a level from either end list its significant nodes.
-/
namespace TreeNav

variable {t : Tree}

namespace Node

variable {direction : Direction}

/-- The parent of `m` is strictly above `n`. -/
def flanks (n m : Node t) : Bool := m.parent?.any n.ancestors.contains

theorem flanks_iff {n m : Node t} :
    n.flanks m = true ↔ ∃ p, m.parent? = some p ∧ p ∈ n.ancestors := by
  simp [flanks, Option.any_eq_true]

/-- What lies beside a node or beside some node around it lies on that side of the node and has
its parent around the node. -/
theorem exists_beside_iff {n m : Node t} :
    (∃ a ∈ n.lineage, m ∈ a.beside direction) ↔ n.flanks m = true ∧ OnSide direction n m := by
  rw [flanks_iff]
  constructor
  · rintro ⟨a, above, beside⟩
    obtain ⟨inner, same, side⟩ := beside_spec beside
    obtain ⟨p, parent⟩ := parent?_isSome inner
    refine ⟨⟨p, same.trans parent, ?_⟩, side.mono above m.self_mem_lineage⟩
    rcases List.mem_cons.mp above with rfl | higher
    · exact ancestors_of_parent? parent ▸ p.self_mem_lineage
    · exact ancestors_of_child parent higher
  · rintro ⟨⟨p, parent, above⟩, side⟩
    obtain ⟨higher, different⟩ := mem_ancestors_iff.mp above
    obtain ⟨a, over_a, toward⟩ := exists_child_toward higher different.symm
    refine ⟨a, toward, ?_⟩
    rcases beside_or_eq_or_opposite direction parent over_a with beside | rfl | against
    · exact beside
    · exact absurd toward side.not_mem_lineage
    · have back := (beside_spec against).2.2.mono toward m.self_mem_lineage
      exact absurd (onSide_opposite.mp back) side.asymm

/-- What has its parent around a node lies after the node with all below it if it comes later in
pre-order. -/
theorem onSide_forward_iff {n m : Node t} (flank : n.flanks m = true) :
    OnSide .forward n m ↔ n.precedes m = true := by
  obtain ⟨p, parent, above⟩ := flanks_iff.mp flank
  rw [precedes_iff]
  constructor
  · intro side
    refine ⟨.inr side, ?_⟩
    rintro rfl
    exact side.asymm side
  · rintro ⟨below | before, different⟩
    · -- A node below `n` has its parent at `n` or below.
      rw [lineage_of_parent? parent, List.mem_cons] at below
      obtain ⟨higher, apart⟩ := mem_ancestors_iff.mp above
      rcases below with same | lower
      · exact absurd same different
      · exact absurd (mem_lineage_antisymm higher lower) apart
    · exact before

/-- It lies before the node with all below it if it comes earlier and is not around it. -/
theorem onSide_backward_iff {n m : Node t} :
    OnSide .backward n m ↔ m.precedes n = true ∧ m ∉ n.ancestors := by
  rw [precedes_iff, mem_ancestors_iff]
  constructor
  · intro side
    have apart := Before.not_mem_lineage side
    refine ⟨⟨.inr side, ?_⟩, fun above => apart.1 above.1⟩
    rintro rfl
    exact side.asymm side
  · rintro ⟨⟨above | before, different⟩, apart⟩
    · exact absurd ⟨above, different⟩ apart
    · exact before

end Node

namespace Lens

variable (lens : Lens)

/-- A move leads nowhere if nothing significant lies beside the start or beside a node around it,
and else to the nearest of what lies there. -/
theorem sibling_choice (direction : Direction) (n : Node t) {sought : Node t → Bool}
    (sought_iff : ∀ q, sought q = true ↔ lens.isSignificant q = true ∧ n.flanks q = true ∧
      Node.OnSide direction n q) :
    (lens.sibling direction n = none → ∀ q, sought q = false) ∧
    ∀ m, lens.sibling direction n = some m → sought m = true ∧
      ∀ q, sought q = true → q = m ∨ Node.OnSide direction m q := by
  simp only [← Node.exists_beside_iff] at sought_iff
  constructor
  · intro lost q
    rw [← Bool.not_eq_true, sought_iff]
    rintro ⟨stop, a, above, beside⟩
    simp [(lens.sibling_eq_none_iff direction n).mp lost a above q beside] at stop
  · intro m found
    refine ⟨(sought_iff m).mpr (lens.sibling_spec direction found), fun q wished => ?_⟩
    obtain ⟨stop, a, above, beside⟩ := (sought_iff q).mp wished
    exact lens.sibling_nearest direction found above beside stop

theorem sibling_forward_eq_head? (n : Node t) :
    lens.sibling .forward n = (t.nodes.filter fun m =>
      lens.isSignificant m && n.flanks m && n.precedes m).head? := by
  have sought_iff : ∀ q : Node t, (lens.isSignificant q && n.flanks q && n.precedes q) = true ↔
      lens.isSignificant q = true ∧ n.flanks q = true ∧ Node.OnSide .forward n q := by
    intro q
    rw [Bool.and_eq_true, Bool.and_eq_true, and_assoc]
    exact and_congr_right fun _ => and_congr_right fun flank =>
      (Node.onSide_forward_iff flank).symm
  obtain ⟨lost, chosen⟩ := lens.sibling_choice .forward n sought_iff
  refine Node.eq_head?_filter_nodes lost fun m found => ?_
  obtain ⟨wished, nearest⟩ := chosen m found
  refine ⟨wished, fun q wished' => ?_⟩
  rcases nearest q wished' with rfl | further
  · exact .inl q.self_mem_lineage
  · exact .inr further

theorem sibling_backward_eq_getLast? (n : Node t) :
    lens.sibling .backward n = (t.nodes.filter fun m =>
      lens.isSignificant m && n.flanks m && m.precedes n && !n.ancestors.contains m).getLast? := by
  have sought_iff : ∀ q : Node t,
      (lens.isSignificant q && n.flanks q && q.precedes n && !n.ancestors.contains q) = true ↔
        lens.isSignificant q = true ∧ n.flanks q = true ∧ Node.OnSide .backward n q := by
    simp [Node.onSide_backward_iff, and_assoc]
  obtain ⟨lost, chosen⟩ := lens.sibling_choice .backward n sought_iff
  refine Node.eq_getLast?_filter_nodes lost fun m found => ?_
  obtain ⟨wished, nearest⟩ := chosen m found
  refine ⟨wished, fun q wished' => ?_⟩
  rcases nearest q wished' with rfl | further
  · exact .inl q.self_mem_lineage
  · exact .inr further

end Lens

/-- A move to a sibling, leaving the levels that have none, is one choice in pre-order. Forward it
leads to the first of the significant nodes that come after `n` and have their parent around it;
backward to the last of those that come before `n`, are not around it, and have their parent
around it. In a well-formed tree the forward target starts where `n` ends or later, and the
backward target ends where `n` starts or earlier. -/
theorem Lens.sibling_chosen_in_preorder (lens : Lens) (n : Node t) :
    lens.sibling .forward n = (t.nodes.filter fun m =>
      lens.isSignificant m && n.flanks m && n.precedes m).head? ∧
    lens.sibling .backward n = (t.nodes.filter fun m =>
      lens.isSignificant m && n.flanks m && m.precedes n && !n.ancestors.contains m).getLast? ∧
    (t.WellFormed →
      (∀ m, lens.sibling .forward n = some m → n.span.stop ≤ m.span.start) ∧
      ∀ m, lens.sibling .backward n = some m → m.span.stop ≤ n.span.start) := by
  refine ⟨lens.sibling_forward_eq_head? n, lens.sibling_backward_eq_getLast? n, fun wf => ?_⟩
  exact ⟨fun m found => wf.sibling_forward_after found,
    fun m found => wf.sibling_backward_before found⟩

/-- The arguments of the call in the block. -/
def Node.argumentsOfCall : Node Tree.callInBlock := ⟨[1, 0, 1, 0], rfl⟩

/-- The end of the block. -/
def Node.endOfBlock : Node Tree.callInBlock := ⟨[2, 0], rfl⟩

/-- From the arguments of a call the move forward leaves the call and the statement that it fills,
and leads to the end of the block. -/
theorem Lens.sibling_of_arguments_in_preorder :
    Tree.callInBlock.WellFormed ∧
    (Lens.mk .full {}).sibling .forward Node.argumentsOfCall = some Node.endOfBlock ∧
    (Tree.callInBlock.nodes.filter fun m => Lens.isSignificant ⟨.full, {}⟩ m &&
      Node.argumentsOfCall.flanks m && Node.argumentsOfCall.precedes m).head? =
        some Node.endOfBlock ∧
    Node.argumentsOfCall.span.stop ≤ Node.endOfBlock.span.start := by
  have wf : Tree.callInBlock.WellFormed := by decide
  have found : (Lens.mk .full {}).sibling .forward Node.argumentsOfCall =
      some Node.endOfBlock := by decide
  obtain ⟨chosen, _, apart⟩ := sibling_chosen_in_preorder ⟨.full, {}⟩ Node.argumentsOfCall
  exact ⟨wf, found, chosen ▸ found, (apart wf).1 _ found⟩

namespace Lens

variable {lens : Lens} {direction : Direction} {a n s p : Node t}

/-- A scan finds the significant sibling on one side that all others there lie beyond. -/
theorem scan_eq_some_iff : lens.scan direction n = some s ↔
    s ∈ n.beside direction ∧ lens.isSignificant s = true ∧
      ∀ q ∈ n.beside direction, lens.isSignificant q = true →
        q = s ∨ Node.OnSide direction s q := by
  rw [scan_eq_find?]
  exact find?_eq_some_iff_of_pairwise (fun _ _ => Node.OnSide.asymm) (n.pairwise_beside direction)

/-- A scan passes over trivial nodes only. -/
theorem trivial_of_scan (found : lens.scan direction a = some s) {c : Node t}
    (same : c.parent? = s.parent?) (beyond : Node.OnSide direction a c)
    (short : Node.OnSide direction c s) : lens.isSignificant c = false := by
  obtain ⟨beside, _, nearest⟩ := scan_eq_some_iff.mp found
  obtain ⟨inner, level, _⟩ := Node.beside_spec beside
  have member : c ∈ a.beside direction :=
    Node.mem_beside_iff.mpr ⟨inner, same.trans level, beyond⟩
  by_contra stop
  rcases nearest c member (Bool.eq_true_of_not_eq_false stop) with rfl | further
  · exact short.asymm short
  · exact short.asymm further

/-- A scan from a significant node is undone by the scan the other way. -/
theorem scan_opposite (found : lens.scan direction a = some s)
    (stop : lens.isSignificant a = true) : lens.scan direction.opposite s = some a := by
  obtain ⟨beside, _, _⟩ := scan_eq_some_iff.mp found
  obtain ⟨inner, level, _⟩ := Node.beside_spec beside
  obtain ⟨p, parent⟩ := Node.parent?_isSome inner
  refine scan_eq_some_iff.mpr ⟨Node.mem_beside_opposite beside, stop, ?_⟩
  intro c member stop'
  obtain ⟨_, same, back⟩ := Node.beside_spec member
  have over_c : c.parent? = some p := same.trans (level.trans parent)
  rcases Node.beside_or_eq_or_opposite direction over_c parent with ahead | equal | behind
  · -- Between `a` and `s` there is nothing significant.
    have passed := trivial_of_scan found same (Node.beside_spec ahead).2.2
      (Node.onSide_opposite.mp back)
    rw [stop'] at passed
    cases passed
  · exact .inl equal
  · exact .inr (Node.beside_spec behind).2.2

theorem sibling_of_scan (found : lens.scan direction n = some s) :
    lens.sibling direction n = some s := by
  rw [sibling, Node.lineage, List.findSome?_cons, found]

end Lens

/-- On the way up from a node at most one node is a child of a given one. -/
theorem Node.eq_of_same_parent {a b n : Node t} (left : a ∈ n.lineage) (right : b ∈ n.lineage)
    (inner : b ≠ root t) (same : a.parent? = b.parent?) : a = b := by
  obtain ⟨p, parent⟩ := parent?_isSome inner
  obtain ⟨i, at_a⟩ := parent?_eq_some_iff.mp (same.trans parent)
  obtain ⟨j, at_b⟩ := parent?_eq_some_iff.mp parent
  apply ext
  apply Path.eq_of_suffix (mem_lineage_iff.mp left) (mem_lineage_iff.mp right)
  simp [at_a, at_b]

section Level

variable {lens : Lens} {direction : Direction} {m p : Node t}

/-- A list as it is met in a direction. -/
def Direction.along {α : Type} : Direction → List α → List α
  | forward, listed => listed
  | backward, listed => listed.reverse

theorem Direction.along_opposite {α : Type} (direction : Direction) (listed : List α) :
    direction.opposite.along listed = (direction.along listed).reverse := by
  cases direction <;> simp [opposite, along]

theorem Direction.filter_along {α : Type} (direction : Direction) (sought : α → Bool)
    (listed : List α) : (direction.along listed).filter sought =
      direction.along (listed.filter sought) := by
  cases direction <;> simp [along]

/-- Beside a child lie the children that are met after it. -/
theorem Node.beside_of_along {front rest : List (Node t)}
    (split : direction.along p.children = front ++ m :: rest) : m.beside direction = rest := by
  cases direction with
  | forward =>
    simp only [Direction.along] at split
    have at_m : m.path = front.length :: p.path := by
      rw [← getElem?_children_eq_some_iff, split]
      simp
    rw [beside_forward at_m, split]
    simp
  | backward =>
    simp only [Direction.along, List.reverse_eq_append_iff, List.reverse_cons] at split
    have at_m : m.path = rest.length :: p.path := by
      rw [← getElem?_children_eq_some_iff, split]
      simp
    rw [beside_backward at_m, split]
    simp

theorem Lens.child_eq_head? (lens : Lens) (direction : Direction) (p : Node t) :
    lens.child direction p = (direction.along (p.children.filter lens.isSignificant)).head? := by
  rw [← Direction.filter_along, List.head?_filter]
  cases direction <;> rfl

/-- The significant child that is reached from the first one in a direction by scanning `k`
times. -/
def Lens.visit (lens : Lens) (direction : Direction) (p : Node t) : Nat → Option (Node t)
  | 0 => lens.child direction p
  | k + 1 => (lens.visit direction p k).bind (lens.scan direction)

/-- One scan leads from a significant child to the next. -/
theorem Lens.scan_of_getElem? {k : Nat}
    (here : (direction.along (p.children.filter lens.isSignificant))[k]? = some m) :
    lens.scan direction m = (direction.along (p.children.filter lens.isSignificant))[k + 1]? := by
  rw [← Direction.filter_along] at here ⊢
  generalize whole : (direction.along p.children).filter lens.isSignificant = stops at here
  obtain ⟨inside, at_k⟩ := List.getElem?_eq_some_iff.mp here
  have split : stops = stops.take k ++ m :: stops.drop (k + 1) := by
    rw [← at_k, ← List.drop_eq_getElem_cons inside, List.take_append_drop]
  rw [split, List.filter_eq_append_iff] at whole
  obtain ⟨front, later, cut, _, from_m⟩ := whole
  obtain ⟨skipped, rest, cut', _, _, others⟩ := List.filter_eq_cons_iff.mp from_m
  rw [cut', ← List.append_assoc] at cut
  rw [scan_eq_find?, Node.beside_of_along cut, ← List.head?_filter, others, List.head?_drop]

theorem Lens.visit_eq_getElem? (lens : Lens) (direction : Direction) (p : Node t) (k : Nat) :
    lens.visit direction p k = (direction.along (p.children.filter lens.isSignificant))[k]? := by
  induction k with
  | zero => rw [visit, child_eq_head?, List.head?_eq_getElem?]
  | succ k ih =>
    rw [visit, ih]
    cases here : (direction.along (p.children.filter lens.isSignificant))[k]? with
    | none =>
      symm
      simp only [List.getElem?_eq_none_iff, Option.bind_none] at here ⊢
      omega
    | some m => exact scan_of_getElem? here

theorem Lens.child_opposite_eq_getLast? (lens : Lens) (direction : Direction) (p : Node t) :
    lens.child direction.opposite p =
      (direction.along (p.children.filter lens.isSignificant)).getLast? := by
  rw [child_eq_head?, Direction.along_opposite, List.head?_reverse]

/-- Moves to siblings are undone by moves the other way. Of the node and those around it one is a
sibling of the target; what lies between these two is trivial, and from the target the move the
other way leads back to it, if it is significant. Along a level, scanning from the first
significant child on lists the significant children in source order up to the last, and scanning
back from the last lists them in reverse. -/
theorem Lens.sibling_undone_by_opposite (lens : Lens) (t : Tree) :
    (∀ (direction : Direction) (n s : Node t), lens.sibling direction n = some s →
      (∃ a ∈ n.lineage, a.parent? = s.parent? ∧
        (∀ b ∈ n.lineage, b.parent? = s.parent? → b = a) ∧
        (∀ c : Node t, c.parent? = s.parent? → Node.OnSide direction a c →
          Node.OnSide direction c s → lens.isSignificant c = false) ∧
        (lens.isSignificant a = true → lens.sibling direction.opposite s = some a)) ∧
      (n.parent? = s.parent? → lens.isSignificant n = true →
        lens.sibling direction.opposite s = some n)) ∧
    ∀ p : Node t,
      (∀ k, lens.visit .forward p k = (p.children.filter lens.isSignificant)[k]?) ∧
      (∀ k, lens.visit .backward p k = (p.children.filter lens.isSignificant).reverse[k]?) ∧
      lens.child .backward p = (p.children.filter lens.isSignificant).getLast? ∧
      lens.child .forward p = (p.children.filter lens.isSignificant).reverse.getLast? := by
  constructor
  · intro direction n s found
    obtain ⟨a, above, scanned⟩ := List.exists_of_findSome?_eq_some found
    obtain ⟨inner, level, _⟩ := Node.beside_spec (scan_eq_some_iff.mp scanned).1
    have only : ∀ b ∈ n.lineage, b.parent? = s.parent? → b = a := by
      intro b above' same
      exact Node.eq_of_same_parent above' above inner (same.trans level)
    have back : lens.isSignificant a = true → lens.sibling direction.opposite s = some a :=
      fun stop => sibling_of_scan (scan_opposite scanned stop)
    refine ⟨⟨a, above, level.symm, only, fun c same => trivial_of_scan scanned same, back⟩, ?_⟩
    intro same stop
    rw [only n n.self_mem_lineage same] at stop ⊢
    exact back stop
  · intro p
    exact ⟨lens.visit_eq_getElem? .forward p, lens.visit_eq_getElem? .backward p,
      lens.child_opposite_eq_getLast? .forward p, lens.child_opposite_eq_getLast? .backward p⟩

/-- From the arguments of a call the move forward leads to the end of the block, and the move back
from there to the statement around the call. -/
theorem Lens.sibling_of_arguments_undone :
    (Lens.mk .full {}).sibling .forward Node.argumentsOfCall = some Node.endOfBlock ∧
    ∃ a ∈ Node.argumentsOfCall.lineage, a.kind = "statement" ∧
      (Lens.mk .full {}).sibling .backward Node.endOfBlock = some a := by
  have found : (Lens.mk .full {}).sibling .forward Node.argumentsOfCall =
      some Node.endOfBlock := by decide
  obtain ⟨a, above, _, only, _, back⟩ := ((sibling_undone_by_opposite ⟨.full, {}⟩
    Tree.callInBlock).1 .forward Node.argumentsOfCall Node.endOfBlock found).1
  have same : (⟨[1, 0], rfl⟩ : Node Tree.callInBlock) = a := only _ (by decide) (by decide)
  refine ⟨found, a, above, ?_, back ?_⟩
  · rw [← same]
    decide
  · rw [← same]
    decide

end Level

end TreeNav
