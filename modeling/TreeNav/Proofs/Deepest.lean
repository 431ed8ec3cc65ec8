import TreeNav.Proofs.Descent
import TreeNav.Proofs.Preorder

/-!
The deepest node around a caret or a selection. The lookup goes down into the first child that
fits and never looks back. In a well-formed tree this finds what a search through all nodes from
its start down would choose: for a caret the deepest node around the byte that the caret stands
for, for a selection the deepest node of its very range, or else the deepest node around it.
-/
namespace TreeNav

namespace Node

variable {t : Tree} {n r : Node t} {meets : Span → Bool}

/-- The node and everything below it, in pre-order. -/
def nodes (n : Node t) : List (Node t) := t.nodes.filter fun m => m.lineage.contains n

/-- The deepest node from `n` down whose range meets a condition. -/
def deepest? (n : Node t) (meets : Span → Bool) : Option (Node t) :=
  (n.nodes.filter fun m => meets m.span).argmax fun m => m.path.length

/-- What a selection stands for among the nodes from `n` down: the deepest node of exactly its
range, or else the deepest node around it, or else `n`. -/
def resolve (n : Node t) (selection : Span) : Node t :=
  ((n.deepest? fun s => s == selection).or (n.deepest? fun s => s.covers selection)).getD n

theorem mem_nodes_iff {m : Node t} : m ∈ n.nodes ↔ n ∈ m.lineage := by
  simp [nodes, Tree.mem_nodes]

theorem deepest?_eq_none (refused : ∀ m : Node t, n ∈ m.lineage → meets m.span = false) :
    n.deepest? meets = none := by
  rw [deepest?, List.argmax_eq_none, List.filter_eq_nil_iff]
  intro m member
  simp [refused m (mem_nodes_iff.mp member)]

/-- A node with all others that meet the condition above it is the deepest. -/
theorem deepest?_eq_some (below : n ∈ r.lineage) (met : meets r.span = true)
    (lowest : ∀ m : Node t, n ∈ m.lineage → meets m.span = true → m ∈ r.lineage) :
    n.deepest? meets = some r := by
  have higher : ∀ m ∈ n.nodes.filter fun m => meets m.span, m.path <:+ r.path := by
    intro m member
    obtain ⟨inside, met'⟩ := List.mem_filter.mp member
    exact mem_lineage_iff.mp (lowest m (mem_nodes_iff.mp inside) met')
  rw [deepest?, ← Option.mem_def, List.mem_argmax_iff]
  refine ⟨List.mem_filter.mpr ⟨mem_nodes_iff.mpr below, met⟩, ?_, ?_⟩
  · intro m member
    exact (higher m member).length_le
  · intro m member level
    have part := higher m member
    have same : m = r := ext (part.eq_of_length (Nat.le_antisymm part.length_le level))
    rw [same]

/-- Where no node from `n` down is around the selection, it stands for `n`. -/
theorem resolve_eq_self {selection : Span}
    (refused : ∀ m : Node t, n ∈ m.lineage → m.span.covers selection = false) :
    n.resolve selection = n := by
  have first : (n.deepest? fun s => s == selection) = none := by
    apply deepest?_eq_none
    intro m below
    have outside := refused m below
    rw [beq_eq_false_iff_ne]
    intro same
    rw [same, Span.covers_refl] at outside
    cases outside
  rw [resolve, first, deepest?_eq_none refused]
  rfl

theorem clamp_eq (n : Node t) (offset : Nat) : n.clamp offset =
    if n.span.start < n.span.stop ∧ n.span.stop ≤ offset then n.span.stop - 1 else offset := by
  simp only [clamp, Bool.and_eq_true, decide_eq_true_eq, Bool.not_eq_true',
    Span.isEmpty_eq_false_iff, and_comm]

end Node

namespace Tree.WellFormed

variable {t : Tree} {n m : Node t} {offset : Nat}

theorem contains_of_mem_lineage (wf : t.WellFormed) {a : Node t} (above : a ∈ m.lineage)
    (inside : m.span.contains offset = true) : a.span.contains offset = true := by
  rw [← Span.covers_byte] at *
  exact Span.covers_trans (wf.covers_of_mem_lineage above) inside

/-- A node around the selection, with all others above it, is what the selection stands for: no
other node can have exactly its range unless this one has. -/
theorem resolve_eq_of_lowest (wf : t.WellFormed) {r : Node t} {selection : Span}
    (below : n ∈ r.lineage) (cover : r.span.covers selection = true)
    (lowest : ∀ m : Node t, n ∈ m.lineage → m.span.covers selection = true → m ∈ r.lineage) :
    n.resolve selection = r := by
  have second : (n.deepest? fun s => s.covers selection) = some r :=
    Node.deepest?_eq_some below cover lowest
  by_cases fills : r.span = selection
  · have first : (n.deepest? fun s => s == selection) = some r := by
      apply Node.deepest?_eq_some below
      · rw [beq_iff_eq, fills]
      · intro m under same
        rw [beq_iff_eq] at same
        exact lowest m under (same ▸ Span.covers_refl _)
    rw [Node.resolve, first]
    rfl
  · have first : (n.deepest? fun s => s == selection) = none := by
      apply Node.deepest?_eq_none
      intro m under
      rw [beq_eq_false_iff_ne]
      intro same
      have upper := wf.covers_of_mem_lineage (lowest m under (same ▸ Span.covers_refl _))
      rw [same] at upper
      exact fills (Span.covers_antisymm cover upper)
    rw [Node.resolve, first, second]
    rfl

/-- Every node around the byte that a caret stands for is the node at the caret or above it. -/
theorem mem_lineage_atOffset (wf : t.WellFormed) (below : n ∈ m.lineage)
    (inside : m.span.contains (n.clamp offset) = true) : m ∈ (n.atOffset offset).lineage := by
  rw [← Node.covering_caret]
  apply wf.mem_lineage_covering below
  rwa [Node.probe_caret, Span.covers_byte]

/-- A node around that byte of which no child is around it is the node at the caret. -/
theorem atOffset_of_children (wf : t.WellFormed) (below : n ∈ m.lineage)
    (inside : m.span.contains (n.clamp offset) = true)
    (outside : ∀ c ∈ m.children, c.span.contains (n.clamp offset) = false) :
    n.atOffset offset = m := by
  have above := wf.mem_lineage_atOffset below inside
  by_contra deeper
  -- The child of `m` on the way down to the result would be around the byte too.
  obtain ⟨c, parent, higher⟩ := Node.exists_child_toward above deeper
  have moved : n.atOffset offset ≠ n := by
    intro stayed
    rw [stayed] at above deeper
    exact deeper (Node.mem_lineage_antisymm below above)
  have reached := wf.contains_of_mem_lineage higher (Node.contains_of_atOffset_ne moved)
  rw [outside c (Node.mem_children_iff.mpr parent)] at reached
  cases reached

/-- At the end of one node and the start of a later one that holds something, a caret belongs to
the later one. -/
theorem atOffset_of_boundary (wf : t.WellFormed) {c d : Node t} (order : c.Before d)
    (below : n ∈ d.lineage) (held : d.span.isEmpty = false) (starts : d.span.start = offset) :
    d ∈ (n.atOffset offset).lineage ∧ c ∉ (n.atOffset offset).lineage := by
  have around := (Span.covers_iff ..).mp (wf.covers_of_mem_lineage below)
  have width := (Span.isEmpty_eq_false_iff _).mp held
  have kept : n.clamp offset = offset := by
    rw [Node.clamp_eq, if_neg]
    omega
  have above : d ∈ (n.atOffset offset).lineage := by
    apply wf.mem_lineage_atOffset below
    rw [kept, Span.contains_iff]
    omega
  refine ⟨above, fun above' => ?_⟩
  rcases Node.mem_lineage_total above' above with higher | lower
  · exact order.not_mem_lineage.1 higher
  · exact order.not_mem_lineage.2 lower

end Tree.WellFormed

section Lookup

variable {t : Tree}

/-- An offset stands for the byte after it or, at or past the end of the node where the lookup
starts, for the last byte of that node. The lookup ends at its start or at a node around this byte
that holds something, and all nodes around the byte are the result or above it. So an offset in no
child of a node around it leads to that node, one between two nodes to the later one, and those
past the end lead where the last byte does. -/
theorem Node.atOffset_deepest_around_byte (wf : t.WellFormed) (n : Node t) (offset byte : Nat)
    (stands : byte =
      if n.span.start < n.span.stop ∧ n.span.stop ≤ offset then n.span.stop - 1 else offset) :
    (n.atOffset offset = n ∨ n ∈ (n.atOffset offset).ancestors ∧
      (n.atOffset offset).span.isEmpty = false ∧
      (n.atOffset offset).span.contains byte = true) ∧
    (∀ m : Node t, n ∈ m.lineage → m.span.contains byte = true →
      m ∈ (n.atOffset offset).lineage) ∧
    (∀ m : Node t, n ∈ m.lineage → m.span.contains byte = true →
      (∀ c ∈ m.children, c.span.contains byte = false) → n.atOffset offset = m) ∧
    (∀ c d : Node t, c.Before d → n ∈ d.lineage → d.span.isEmpty = false →
      c.span.stop = offset → d.span.start = offset →
        d ∈ (n.atOffset offset).lineage ∧ c ∉ (n.atOffset offset).lineage) ∧
    (n.span.isEmpty = false → n.span.stop ≤ offset →
      n.atOffset offset = n.atOffset (n.span.stop - 1)) := by
  rw [← n.clamp_eq offset] at stands
  subst stands
  refine ⟨?_, fun m => wf.mem_lineage_atOffset, fun m => wf.atOffset_of_children, ?_, ?_⟩
  · by_cases stayed : n.atOffset offset = n
    · exact .inl stayed
    · have inside := contains_of_atOffset_ne stayed
      have below : n ∈ (n.atOffset offset).lineage := (descent_descend n _).below
      refine .inr ⟨mem_ancestors_iff.mpr ⟨below, Ne.symm stayed⟩, ?_, inside⟩
      rw [Span.contains_iff] at inside
      rw [Span.isEmpty_eq_false_iff]
      omega
  · intro c d order below held _ starts
    exact wf.atOffset_of_boundary order below held starts
  · intro held past
    have width := (Span.isEmpty_eq_false_iff _).mp held
    have same : n.clamp offset = n.clamp (n.span.stop - 1) := by
      rw [clamp_eq, clamp_eq, if_pos ⟨width, past⟩, if_neg (by omega)]
    rw [atOffset, atOffset, same]

/-- From the block down, the offset between the name of the call and its arguments leads to the
arguments. -/
theorem Node.arguments_around_boundary :
    Tree.callInBlock.WellFormed ∧
    (⟨[0, 0, 1, 0], rfl⟩ : Node Tree.callInBlock).span.stop = 5 ∧
    (⟨[0], rfl⟩ : Node Tree.callInBlock).atOffset 5 = ⟨[1, 0, 1, 0], rfl⟩ := by
  have wf : Tree.callInBlock.WellFormed := by decide
  refine ⟨wf, rfl, ?_⟩
  obtain ⟨_, _, alone, _, _⟩ := atOffset_deepest_around_byte wf ⟨[0], rfl⟩ 5 5 rfl
  exact alone ⟨[1, 0, 1, 0], rfl⟩ (by decide) (by decide) (by decide)

/-- One descent does what the rule for selections does in two stages: the nodes of exactly the
selection's range first, then those around it. All nodes around the selection are the result or
above it. -/
theorem Node.covering_resolves_in_two_stages (wf : t.WellFormed) (n : Node t) (selection : Span)
    (held : selection.isEmpty = false) :
    n.covering selection = n.resolve selection ∧
    ∀ m : Node t, n ∈ m.lineage → m.span.covers selection = true →
      m ∈ (n.covering selection).lineage := by
  have lowest : ∀ m : Node t, n ∈ m.lineage → m.span.covers selection = true →
      m ∈ (n.covering selection).lineage :=
    fun m below cover => wf.mem_lineage_covering_of_held held below cover
  refine ⟨?_, lowest⟩
  have below : n ∈ (n.covering selection).lineage := (descent_covering n selection).below
  by_cases around : (n.covering selection).span.covers selection = true
  · exact (wf.resolve_eq_of_lowest below around lowest).symm
  · -- The descent has entered nothing, so nothing from `n` down is around the selection.
    have stayed : n.covering selection = n := by
      by_contra moved
      have entered := covers_of_covering_ne moved
      rw [n.probe_of_held held] at entered
      exact around entered
    have refused : ∀ m : Node t, n ∈ m.lineage → m.span.covers selection = false := by
      intro m under
      rw [← Bool.not_eq_true]
      intro cover
      rw [stayed] at around
      exact around (Span.covers_trans (wf.covers_of_mem_lineage under) cover)
    rw [stayed, resolve_eq_self refused]

/-- From the block down, the range that the statement shares with the call stands for the call. -/
theorem Node.block_resolves_in_two_stages :
    Tree.callInBlock.WellFormed ∧ (⟨2, 8⟩ : Span).isEmpty = false ∧
    (⟨[0], rfl⟩ : Node Tree.callInBlock).covering ⟨2, 8⟩ = ⟨[0, 1, 0], rfl⟩ ∧
    (⟨[0], rfl⟩ : Node Tree.callInBlock).resolve ⟨2, 8⟩ = ⟨[0, 1, 0], rfl⟩ := by
  have wf : Tree.callInBlock.WellFormed := by decide
  have found : (⟨[0], rfl⟩ : Node Tree.callInBlock).covering ⟨2, 8⟩ = ⟨[0, 1, 0], rfl⟩ := by decide
  refine ⟨wf, by decide, found, ?_⟩
  rw [← (covering_resolves_in_two_stages wf ⟨[0], rfl⟩ ⟨2, 8⟩ (by decide)).1, found]

end Lookup

end TreeNav
