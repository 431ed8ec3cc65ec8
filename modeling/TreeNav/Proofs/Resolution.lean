import TreeNav.Proofs.Run
import TreeNav.Proofs.Targets

/-!
Going back from a reported range to a node loses nothing. Several nested nodes may have one
range; the lookup gives the innermost of them, and the motions that pass over the children
of a node lead from there to where they lead from any other node of the range. So what a
host sees through its selections is a walk from node to node.
-/
namespace TreeNav

/-- The motions to siblings, to the parent and to the nodes of a category. They never ask
for the children of the node that is current. -/
def Motion.ignoresChildren : Motion → Bool
  | nextSibling | previousSibling | parent | next _ | previous _ => true
  | _ => false

variable {t : Tree}

/-- The node to which such a motion leads from a node. -/
def Lens.stepFrom (lens : Lens) (n : Node t) : Motion → Option (Node t)
  | .nextSibling => lens.sibling .forward n
  | .previousSibling => lens.sibling .backward n
  | .parent => lens.parent n
  | .next category => lens.jump (Node.root t) n category .forward
  | .previous category => lens.jump (Node.root t) n category .backward
  | _ => none

/-- The nodes to which motions lead one after the other; one that leads nowhere changes
nothing. -/
def Lens.walk (lens : Lens) : Node t → List Motion → List (Option (Node t))
  | _, [] => []
  | n, motion :: rest =>
    lens.stepFrom n motion :: lens.walk ((lens.stepFrom n motion).getD n) rest

namespace Tree.WellFormed

variable {lens : Lens} {c n : Node t}

/-- A node that fills its parent has no siblings. -/
theorem beside_of_fills (wf : t.WellFormed) (filled : t.Filled) {p : Node t}
    (parent : c.parent? = some p) (fills : c.span = p.span) (direction : Direction) :
    c.beside direction = [] := by
  rw [List.eq_nil_iff_forall_not_mem]
  intro m member
  have sibling : m.parent? = some p := (Node.beside_spec member).2.1.trans parent
  have inside := (Span.covers_iff ..).mp
    (wf.covers_of_mem_lineage (Node.parent_mem_lineage sibling))
  have width := (Span.isEmpty_eq_false_iff _).mp (filled.held_of_parent? sibling)
  rw [← fills] at inside
  cases direction with
  | forward =>
    have apart := wf.stop_le_start_of_beside_forward member
    omega
  | backward =>
    have apart := wf.stop_le_start_of_beside_backward member
    omega

/-- What passes from a node to a child that fills it passes down a whole chain of nodes of
one range. -/
theorem chain_induction (wf : t.WellFormed) {motive : Node t → Prop} (start : motive n)
    (step : ∀ c p, c.parent? = some p → c.span = n.span → p.span = n.span → motive p → motive c)
    (above : n ∈ c.lineage) (same : c.span = n.span) : motive c := by
  refine Node.lineage_induction (motive := fun c => c.span = n.span → motive c)
    (fun _ => start) ?_ above same
  intro c p parent higher ih same
  have inner := wf.covers_of_mem_lineage (Node.parent_mem_lineage parent)
  rw [same] at inner
  have fills := Span.covers_antisymm inner (wf.covers_of_mem_lineage higher)
  exact step c p parent same fills (ih fills)

theorem sibling_of_chain (wf : t.WellFormed) (filled : t.Filled) (direction : Direction)
    (above : n ∈ c.lineage) (same : c.span = n.span) :
    lens.sibling direction c = lens.sibling direction n := by
  refine wf.chain_induction (motive := fun c => lens.sibling direction c =
    lens.sibling direction n) rfl ?_ above same
  intro c p parent at_c at_p ih
  rw [lens.sibling_of_parent? direction parent,
    wf.beside_of_fills filled parent (at_c.trans at_p.symm) direction, List.find?_nil,
    Option.none_or, ih]

theorem parent_of_chain (wf : t.WellFormed) (above : n ∈ c.lineage) (same : c.span = n.span) :
    lens.parent c = lens.parent n := by
  refine wf.chain_induction (motive := fun c => lens.parent c = lens.parent n) rfl ?_ above same
  intro c p parent at_c at_p ih
  rw [← ih, Lens.parent, Lens.parent, Node.ancestors_of_parent? parent, Node.lineage, at_c, at_p,
    List.find?_cons_of_neg]
  rw [at_p, bne_self_eq_false, Bool.false_and]
  exact Bool.false_ne_true

/-- One step: the range of a node stands for the node. -/
theorem locate_eq_stepFrom (wf : t.WellFormed) (filled : t.Filled) (lens : Lens)
    (held : n.span.isEmpty = false) {motion : Motion} (around : motion.ignoresChildren = true) :
    lens.locate (Node.root t) n.span motion = lens.stepFrom n motion := by
  obtain ⟨same, above, _, _⟩ := wf.covering_span held
  cases motion with
  | nextSibling => exact wf.sibling_of_chain filled .forward above same
  | previousSibling => exact wf.sibling_of_chain filled .backward above same
  | parent => exact wf.parent_of_chain above same
  | next category =>
    rw [Lens.locate, Lens.stepFrom, Lens.jump, Lens.jump, same]
  | previous category =>
    rw [Lens.locate, Lens.stepFrom, Lens.jump, Lens.jump, same]
  | firstChild => cases around
  | lastChild => cases around
  | expand => cases around
  | shrink => cases around

/-- A run: the targets of a session are those of the walk from its current node. -/
theorem targets_eq_walk (wf : t.WellFormed) (filled : t.Filled) (lens : Lens) (language : String)
    {s : Session} (selects : s.select = true) (held : n.span.isEmpty = false)
    (here : s.current = n.span) {motions : List Motion}
    (around : ∀ motion ∈ motions, motion.ignoresChildren = true) :
    s.targets t lens language motions = lens.walk n motions := by
  induction motions generalizing s n with
  | nil => rfl
  | cons motion rest ih =>
    have step : s.target t lens motion = lens.stepFrom n motion := by
      rw [Session.target, here]
      exact wf.locate_eq_stepFrom filled lens held (around motion List.mem_cons_self)
    have later : ∀ motion ∈ rest, motion.ignoresChildren = true :=
      fun motion member => around motion (List.mem_cons_of_mem _ member)
    rw [Session.targets, Lens.walk, step]
    refine congrArg _ ?_
    cases found : lens.stepFrom n motion with
    | none =>
      rw [Session.move_of_none (step.trans found)]
      exact ih selects held here later
    | some m =>
      have moved := step.trans found
      refine ih (by rw [Session.select_move, selects]) ?_ ?_ later
      · exact wf.locate_held filled moved
      · exact Session.current_move wf selects moved

end Tree.WellFormed

/-- The range of a node leads to the innermost node of that range, at or below it; motions
that ignore children lead from the range to where they lead from the node itself; and a
session that keeps the selections it is given visits the nodes of a walk on the tree. -/
theorem Node.range_stands_for_node (wf : t.WellFormed) (filled : t.Filled) (lens : Lens)
    (n : Node t) (held : n.span.isEmpty = false) :
    (((root t).covering n.span).span = n.span ∧ n ∈ ((root t).covering n.span).lineage ∧
      ∀ m : Node t, m.span = n.span → m ∈ ((root t).covering n.span).lineage) ∧
    (∀ motion : Motion, motion.ignoresChildren = true →
      lens.locate (root t) n.span motion = lens.stepFrom n motion) ∧
    ∀ (language : String) (s : Session) (motions : List Motion), s.select = true →
      s.selection = some (n.span.start, n.span.stop) →
      (∀ motion ∈ motions, motion.ignoresChildren = true) →
        s.targets t lens language motions = lens.walk n motions ∧
        s.answers t lens language motions = (lens.walk n motions).map .selecting := by
  obtain ⟨same, above, inner, _⟩ := wf.covering_span held
  refine ⟨⟨same, above, inner⟩, fun motion around => ?_, ?_⟩
  · exact wf.locate_eq_stepFrom filled lens held around
  · intro language s motions selects selected around
    have here := Session.current_of_selection held selected
    have visited := wf.targets_eq_walk filled lens language selects held here around
    exact ⟨visited, by rw [Session.answers_eq_map_targets selects, visited]⟩

/-- The range of a statement leads to the call that fills it, and all the same a session
goes on as from the statement. -/
theorem Node.statement_range_stands_for_node :
    Tree.callInBlock.WellFormed ∧ Tree.callInBlock.Filled ∧
    (⟨[1, 0], rfl⟩ : Node Tree.callInBlock).span.isEmpty = false ∧
    ((root Tree.callInBlock).covering ⟨2, 8⟩).path = [0, 1, 0] ∧
    ({ selection := some (2, 8), select := true } : Session).answers Tree.callInBlock ⟨.full, {}⟩ ""
      [.nextSibling, .previousSibling, .parent] =
    (Lens.walk ⟨.full, {}⟩ (⟨[1, 0], rfl⟩ : Node Tree.callInBlock)
      [.nextSibling, .previousSibling, .parent]).map .selecting := by
  have wf : Tree.callInBlock.WellFormed := by decide
  have filled : Tree.callInBlock.Filled := by decide
  have held : (⟨[1, 0], rfl⟩ : Node Tree.callInBlock).span.isEmpty = false := by decide
  refine ⟨wf, filled, held, by decide, ?_⟩
  exact ((range_stands_for_node wf filled ⟨.full, {}⟩ _ held).2.2 "" _ _ rfl rfl (by decide)).2

end TreeNav
