import TreeNav.Navigation
import TreeNav.Proofs.Records
import TreeNav.Proofs.Searches

/-!
Two ways of looking at a tree that come to the same. A motion asks of the nodes of a tree which
are significant and which belong to a category, and nothing else that depends on the view: the
siblings are the same in both. So two views of which the classifier takes every node for the
same lead every request to the same outcome.
-/
namespace TreeNav

variable {t : Tree}

namespace Node

section Jumps

variable {anchor : Nat} {wanted wanted' : Label → Label → Bool}

theorem firstAfterAmong_congr {n : Node t} {i : Nat} {rest : List Tree}
    (left : n.subtree.children.drop i = rest)
    (same : ∀ c : Node t, c.parent? = some n →
      wanted n.label c.label = wanted' n.label c.label ∧
        c.subtree.firstAfter anchor wanted c.path = c.subtree.firstAfter anchor wanted' c.path) :
    Tree.firstAfterAmong anchor wanted n.label n.path i rest =
      Tree.firstAfterAmong anchor wanted' n.label n.path i rest := by
  induction rest generalizing i with
  | nil => rfl
  | cons s others ih =>
    obtain ⟨c, at_c, rfl, tail⟩ := exists_child_of_drop left
    obtain ⟨here, below⟩ := same c (parent?_eq_some_iff.mpr ⟨i, at_c⟩)
    rw [Tree.firstAfterAmong, Tree.firstAfterAmong, ← at_c, below, ih tail, ← label, here]

theorem firstAfter_congr
    (same : ∀ p c : Node t, c.parent? = some p → wanted p.label c.label = wanted' p.label c.label)
    (n : Node t) :
    n.subtree.firstAfter anchor wanted n.path = n.subtree.firstAfter anchor wanted' n.path := by
  rw [Tree.firstAfter_eq, Tree.firstAfter_eq]
  exact firstAfterAmong_congr rfl fun c parent => ⟨same n c parent, firstAfter_congr same c⟩
termination_by sizeOf n.subtree
decreasing_by exact sizeOf_subtree_lt parent

theorem lastBeforeAmong_congr {n : Node t} {i : Nat} {rest : List Tree}
    (left : n.subtree.children.drop i = rest)
    (same : ∀ c : Node t, c.parent? = some n →
      wanted n.label c.label = wanted' n.label c.label ∧
        c.subtree.lastBefore anchor wanted c.path = c.subtree.lastBefore anchor wanted' c.path) :
    Tree.lastBeforeAmong anchor wanted n.label n.path i rest =
      Tree.lastBeforeAmong anchor wanted' n.label n.path i rest := by
  induction rest generalizing i with
  | nil => rfl
  | cons s others ih =>
    obtain ⟨c, at_c, rfl, tail⟩ := exists_child_of_drop left
    obtain ⟨here, below⟩ := same c (parent?_eq_some_iff.mpr ⟨i, at_c⟩)
    rw [Tree.lastBeforeAmong, Tree.lastBeforeAmong, ← at_c, below, ih tail, ← label, here]

theorem lastBefore_congr
    (same : ∀ p c : Node t, c.parent? = some p → wanted p.label c.label = wanted' p.label c.label)
    (n : Node t) :
    n.subtree.lastBefore anchor wanted n.path = n.subtree.lastBefore anchor wanted' n.path := by
  rw [Tree.lastBefore_eq, Tree.lastBefore_eq]
  exact lastBeforeAmong_congr rfl fun c parent => ⟨same n c parent, lastBefore_congr same c⟩
termination_by sizeOf n.subtree
decreasing_by exact sizeOf_subtree_lt parent

end Jumps

section Shrinking

variable {selection : Span} {qualifies qualifies' : Label → Bool}

theorem largestAmong_congr {n : Node t} {i : Nat} {rest : List Tree} {best : Option Hit}
    (left : n.subtree.children.drop i = rest)
    (same : ∀ c : Node t, c.parent? = some n → qualifies c.label = qualifies' c.label ∧
      ∀ best, c.subtree.largestWithin selection qualifies c.path best =
        c.subtree.largestWithin selection qualifies' c.path best) :
    Tree.largestAmong selection qualifies n.path i best rest =
      Tree.largestAmong selection qualifies' n.path i best rest := by
  induction rest generalizing i best with
  | nil => rfl
  | cons s others ih =>
    obtain ⟨c, at_c, rfl, tail⟩ := exists_child_of_drop left
    obtain ⟨here, below⟩ := same c (parent?_eq_some_iff.mpr ⟨i, at_c⟩)
    rw [label] at here
    simp only [Tree.largestAmong, ← at_c, below, ih tail, here]

theorem largestWithin_congr (same : ∀ c : Node t, qualifies c.label = qualifies' c.label)
    (n : Node t) (best : Option Hit) :
    n.subtree.largestWithin selection qualifies n.path best =
      n.subtree.largestWithin selection qualifies' n.path best := by
  rw [Tree.largestWithin_eq, Tree.largestWithin_eq]
  exact largestAmong_congr rfl fun c parent => ⟨same c, fun best => largestWithin_congr same c best⟩
termination_by sizeOf n.subtree
decreasing_by exact sizeOf_subtree_lt parent

end Shrinking

theorem next?_eq_nextBySearch? (n : Node t) : n.next? = n.nextBySearch? :=
  (View.full.step_eq_head? .forward n).trans (View.bare.step_eq_head? .forward n).symm

theorem prev?_eq_prevBySearch? (n : Node t) : n.prev? = n.prevBySearch? :=
  (View.full.step_eq_head? .backward n).trans (View.bare.step_eq_head? .backward n).symm

end Node

/-- Two lenses that take every node of a tree for the same. -/
structure Lens.Agree (t : Tree) (left right : Lens) : Prop where
  significant : ∀ n : Node t, left.isSignificant n = right.isSignificant n
  belongs : ∀ (category : Category) (n : Node t),
    left.belongs category n = right.belongs category n

namespace Lens.Agree

variable {left right : Lens} (agree : Agree t left right)
include agree

theorem isSignificant_eq : left.isSignificant (t := t) = right.isSignificant :=
  funext agree.significant

/-- The two scans go through the same siblings, however each view finds them. -/
theorem scan_eq (direction : Direction) :
    left.scan (t := t) direction = right.scan direction := by
  funext n
  rw [left.scan_eq_find?, right.scan_eq_find?, agree.isSignificant_eq]

theorem sibling_eq (direction : Direction) (n : Node t) :
    left.sibling direction n = right.sibling direction n := by
  rw [sibling, sibling, agree.scan_eq]

theorem parent_eq (n : Node t) : left.parent n = right.parent n := by
  rw [parent, parent, agree.isSignificant_eq]

theorem child_eq (direction : Direction) (n : Node t) :
    left.child direction n = right.child direction n := by
  unfold child
  rw [agree.isSignificant_eq]

theorem shrink_eq (n : Node t) (selection : Span) :
    left.shrink n selection = right.shrink n selection := by
  simp only [shrink, Node.largestWithin_congr agree.significant (n.covering selection)]

theorem jump_eq (n current : Node t) (category : Category) (direction : Direction) :
    left.jump n current category direction = right.jump n current category direction := by
  have same : ∀ p c : Node t, c.parent? = some p →
      left.classifier.belongs left.view category (some p.label) c.label =
        right.classifier.belongs right.view category (some p.label) c.label := by
    intro p c parent
    have verdict := agree.belongs category c
    rwa [Lens.belongs, Lens.belongs, parent] at verdict
  cases direction with
  | forward => exact congrArg (Option.bind · t.node?) (Node.firstAfter_congr same n)
  | backward => exact congrArg (Option.bind · _) (Node.lastBefore_congr same n)

theorem locate_eq (n : Node t) (selection : Span) (motion : Motion) :
    left.locate n selection motion = right.locate n selection motion := by
  cases motion with
  | expand => rfl
  | shrink => exact agree.shrink_eq n selection
  | nextSibling => exact agree.sibling_eq .forward _
  | previousSibling => exact agree.sibling_eq .backward _
  | parent => exact agree.parent_eq _
  | firstChild => exact agree.child_eq .forward _
  | lastChild => exact agree.child_eq .backward _
  | next category => exact agree.jump_eq n _ category .forward
  | previous category => exact agree.jump_eq n _ category .backward

theorem navigate_eq (r : Request) : navigate t left r = navigate t right r := by
  rw [navigate, navigate, agree.locate_eq]

end Lens.Agree

/-- All that a classifier asks of a view is whether a node is named, and that only if it finds
anonymous nodes trivial. -/
theorem Classifier.isSignificant_full_eq_bare {c : Classifier} {label : Label}
    (plain : c.anonymousTrivial = false ∨ label.named = true) :
    c.isSignificant .full label = c.isSignificant .bare label := by
  rcases plain with off | named
  · simp [isSignificant, verdict, off]
  · simp [isSignificant, View.named, named]

theorem Lens.agree_full_bare {c : Classifier}
    (plain : c.anonymousTrivial = false ∨ ∀ n : Node t, n.label.named = true) :
    Agree t ⟨.full, c⟩ ⟨.bare, c⟩ := by
  have significant : ∀ n : Node t,
      c.isSignificant .full n.label = c.isSignificant .bare n.label :=
    fun n => Classifier.isSignificant_full_eq_bare (plain.imp_right fun named => named n)
  refine ⟨significant, fun category n => ?_⟩
  simp only [Lens.belongs, Classifier.belongs, significant n]

namespace Arena

variable {kind : String} {span : Span} {steps : List BuildStep} {a : Arena}

/-- In every arena that was built, with or without the check that nodes lie inside their parents,
the index that a record carries gives the siblings that a search through the parent's list gives.
The nodes of the tree that is navigated are the records,
one for one, with the labels, parents, children and siblings of the records, found either way.
So a request comes to the same by the index, with the anonymous nodes known, and by the search,
with all nodes taken for named, unless the classifier tells anonymous nodes from others and
there are any. -/
theorem indexed_siblings_as_searched
    (built : Arena.build kind span steps = .ok a ∨ a = Arena.assemble kind span steps) :
    (∀ id, a.next? id = a.nextBySearch? id ∧ a.prev? id = a.prevBySearch? id) ∧
    (∃ number : Node a.toTree ≃ Fin a.size, ∀ n,
      (a.node? (number n)).map (fun r => r.label) = some n.label ∧
      a.parent? (number n) = n.parent?.map (fun m => (number m : Nat)) ∧
      (∀ k, a.child? (number n) k = (n.child? k).map fun m => (number m : Nat)) ∧
      a.next? (number n) = n.next?.map (fun m => (number m : Nat)) ∧
      a.nextBySearch? (number n) = n.nextBySearch?.map (fun m => (number m : Nat)) ∧
      a.prev? (number n) = n.prev?.map (fun m => (number m : Nat)) ∧
      a.prevBySearch? (number n) = n.prevBySearch?.map (fun m => (number m : Nat))) ∧
    (∀ n : Node a.toTree, n.next? = n.nextBySearch? ∧ n.prev? = n.prevBySearch?) ∧
    ∀ (c : Classifier) (r : Request),
      c.anonymousTrivial = false ∨ (∀ n : Node a.toTree, n.label.named = true) →
        navigate a.toTree ⟨.full, c⟩ r = navigate a.toTree ⟨.bare, c⟩ r := by
  obtain rfl : a = Arena.assemble kind span steps := built.elim (fun ok => (build_eq_ok ok).1) id
  obtain ⟨linked, _⟩ := sound_assemble kind span steps
  refine ⟨fun id => ?_, ⟨Equiv.ofBijective _ (number_bijective linked), fun n => ?_⟩, ?_, ?_⟩
  · exact ⟨next?_eq_nextBySearch? linked id, prev?_eq_prevBySearch? linked id⟩
  · refine ⟨label_number linked n, parent?_number linked n, child?_number linked n,
      next?_number linked n, ?_, prev?_number linked n, ?_⟩
    · rw [← next?_eq_nextBySearch? linked, ← n.next?_eq_nextBySearch?]
      exact next?_number linked n
    · rw [← prev?_eq_prevBySearch? linked, ← n.prev?_eq_prevBySearch?]
      exact prev?_number linked n
  · exact fun n => ⟨n.next?_eq_nextBySearch?, n.prev?_eq_prevBySearch?⟩
  · exact fun c r plain => (Lens.agree_full_bare plain).navigate_eq r

/-- Two marks that reach past the block that they are in. -/
def overhanging : List BuildStep := [.token "begin" ⟨2, 9⟩, .token "end" ⟨3, 12⟩]

/-- The statement of a block stands before its end, by the index and by the search, and every
request comes to the same both ways under the empty classifier. Where anonymous nodes are
trivial, the end is a place to stop for the view that does not know them. Nodes that only go in
without the check are siblings both ways too. -/
theorem statement_before_end_both_ways :
    (∃ a, block = .ok a ∧ a.next? 2 = some 4 ∧
      a.next? 2 = a.nextBySearch? 2 ∧ a.prev? 2 = a.prevBySearch? 2 ∧
      (∀ r, navigate a.toTree ⟨.full, {}⟩ r = navigate a.toTree ⟨.bare, {}⟩ r) ∧
      navigate a.toTree ⟨.full, { anonymousTrivial := true }⟩ ⟨"", 3, .nextSibling, none, false⟩ =
        .noMovement ∧
      navigate a.toTree ⟨.bare, { anonymousTrivial := true }⟩ ⟨"", 3, .nextSibling, none, false⟩ =
        .moved 11 none "end") ∧
    Arena.build "block" ⟨0, 4⟩ overhanging = .error ⟨⟨"begin", false, ⟨2, 9⟩⟩, ⟨0, 4⟩⟩ ∧
    (Arena.assemble "block" ⟨0, 4⟩ overhanging).next? 1 = some 2 ∧
    (Arena.assemble "block" ⟨0, 4⟩ overhanging).next? 1 =
      (Arena.assemble "block" ⟨0, 4⟩ overhanging).nextBySearch? 1 := by
  refine ⟨⟨_, rfl, rfl, ?_⟩, rfl, rfl, ?_⟩
  · obtain ⟨searched, _, _, same⟩ := indexed_siblings_as_searched (.inl (rfl : block = _))
    refine ⟨(searched 2).1, (searched 2).2, fun r => same {} r (.inl rfl), ?_, ?_⟩
    · decide
    · decide
  · obtain ⟨searched, _⟩ := indexed_siblings_as_searched
      (.inr (rfl : Arena.assemble "block" ⟨0, 4⟩ overhanging = _))
    exact (searched 1).1

end Arena

end TreeNav
