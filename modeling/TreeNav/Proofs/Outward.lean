import TreeNav.Proofs.Growing
import TreeNav.Proofs.Resolution

/-!
Two ways outwards. The move to the parent passes over trivial nodes and over nodes of the range it
comes from; growing a selection passes over the latter alone. So every range to which the move to
the parent leads is also reached by growing step by step, and where no node is trivial the two
lead to the same node, except that only the move to the parent leads to the root.
-/
namespace TreeNav

variable {t : Tree} {selection : Span}

namespace Tree.WellFormed

/-- A run: growing a selection leads through the range of every node strictly around it, the root
apart. -/
theorem span_mem_of_growsThrough (wf : t.WellFormed) (held : selection.isEmpty = false)
    {steps : List (Node t)} (grown : t.GrowsThrough selection steps) {q : Node t}
    (inner : q ≠ Node.root t) (strictly : q.span.encloses selection = true) :
    q.span ∈ steps.map Node.span := by
  induction steps generalizing selection with
  | nil =>
    have ended : (Node.root t).expand selection = none := grown
    have innermost := wf.expand_isInnermost held
    rw [ended] at innermost
    exact absurd (innermost q strictly) inner
  | cons m rest ih =>
    obtain ⟨found, further⟩ := grown
    obtain ⟨_, cover, lowest⟩ : Node.IsInnermost selection (some m) :=
      found ▸ wf.expand_isInnermost held
    rw [List.map_cons, List.mem_cons]
    by_cases same : q.span = m.span
    · exact .inl same
    · -- The node lies above the first step and has another range, so it is strictly around it.
      have outer := wf.covers_of_mem_lineage (lowest q strictly)
      have held' := Span.not_isEmpty_of_covers (Span.encloses_iff.mp cover).1 held
      exact .inr (ih held' further (Span.encloses_iff.mpr ⟨outer, same⟩))

/-- The parent of a node is strictly around its range. -/
theorem encloses_of_parent (wf : t.WellFormed) {lens : Lens} {n p : Node t}
    (found : lens.parent n = some p) : p.span.encloses n.span = true := by
  obtain ⟨above, other, _⟩ := lens.parent_spec found
  have cover := wf.covers_of_mem_lineage (Node.mem_ancestors_iff.mp above).1
  exact Span.encloses_iff.mpr ⟨cover, other⟩

/-- Where no node is trivial, growing the range of a node is moving to the parent, unless that is
the root. -/
theorem expand_eq_filter_parent (wf : t.WellFormed) {lens : Lens} {n : Node t}
    (held : n.span.isEmpty = false) (stops : ∀ q : Node t, lens.isSignificant q = true) :
    (Node.root t).expand n.span =
      (lens.parent ((Node.root t).covering n.span)).filter fun m => !m.isRoot := by
  obtain ⟨same, _⟩ := wf.covering_span held
  have plain : lens.parent ((Node.root t).covering n.span) =
      ((Node.root t).covering n.span).ancestors.find? fun a => a.span != n.span := by
    simp only [Lens.parent, same, stops, Bool.and_true]
  rw [plain, Node.expand]
  simp only [held, Bool.false_eq_true, if_false, same, if_true]

end Tree.WellFormed

/-- Where the parent of a node is not the root, its range is among those through which the range of
the node grows. Where all nodes are significant, the move to the parent leads from that range to the
node to which growing leads and, where growing leads nowhere, to the root or nowhere. -/
theorem Lens.parent_agrees_with_expand (wf : t.WellFormed) (lens : Lens) {n : Node t}
    (held : n.span.isEmpty = false) :
    (∀ p : Node t, lens.parent n = some p → p ≠ Node.root t →
      ∃ steps, t.GrowsThrough n.span steps ∧ p.span ∈ steps.map Node.span) ∧
    ((∀ q : Node t, lens.isSignificant q = true) →
      (∀ m : Node t, lens.locate (Node.root t) n.span .expand = some m →
        lens.locate (Node.root t) n.span .parent = some m) ∧
      (lens.locate (Node.root t) n.span .expand = none →
        lens.locate (Node.root t) n.span .parent = some (Node.root t) ∨
        lens.locate (Node.root t) n.span .parent = none)) := by
  constructor
  · intro p found inner
    have grown := (wf.growsThrough_iff held (t.enclosing n.span)).mpr rfl
    exact ⟨_, grown, wf.span_mem_of_growsThrough held grown inner (wf.encloses_of_parent found)⟩
  · intro stops
    have agree := wf.expand_eq_filter_parent held stops
    simp only [Lens.locate, agree]
    cases lens.parent ((Node.root t).covering n.span) with
    | none => simp
    | some p =>
      by_cases top : p = Node.root t
      · simp [top, Node.isRoot_iff.mpr]
      · simp [Node.isRoot_eq_false_iff.mpr top]

/-- Where calls and statements are trivial, the parent of the name is the block, which its range
reaches in its second step. Where nothing is trivial, the range that the statement shares with the
call leads to the block either way. -/
theorem Lens.name_parent_agrees_with_expand :
    Tree.callInBlock.WellFormed ∧
    (∃ steps, Tree.callInBlock.GrowsThrough ⟨2, 5⟩ steps ∧ ⟨0, 10⟩ ∈ steps.map Node.span) ∧
    (Lens.mk .full {}).locate (Node.root Tree.callInBlock) ⟨2, 8⟩ .parent = some ⟨[0], rfl⟩ := by
  have wf : Tree.callInBlock.WellFormed := by decide
  refine ⟨wf, ?_, ?_⟩
  · have agrees := parent_agrees_with_expand wf
      ⟨.full, { verdicts := [("call", .trivial), ("statement", .trivial)] }⟩
      (n := ⟨[0, 0, 1, 0], rfl⟩) (by decide)
    exact agrees.1 ⟨[0], rfl⟩ (by decide) (by decide)
  · have agrees := parent_agrees_with_expand wf ⟨.full, {}⟩ (n := ⟨[1, 0], rfl⟩) (by decide)
    exact (agrees.2 (by decide)).1 ⟨[0], rfl⟩ (by decide)

end TreeNav
