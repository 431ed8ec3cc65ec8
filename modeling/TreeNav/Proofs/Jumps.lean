import TreeNav.Proofs.Preorder
import TreeNav.Proofs.Tour

/-!
Where a single jump leads. Forward it finds the first node of the category, in pre-order, that
starts after the current node does; backward one of those with the last start before it, with
no node of the category around it that starts there too. The current node is what counts, not the
caret: a caret in a gap between the children of a large node has the children before it ahead of
the start of that node, and a forward jump then goes back.
-/
namespace TreeNav

variable {t : Tree}

/-- In pre-order the starts do not fall. -/
theorem Tree.WellFormed.start_le_of_leads (wf : t.WellFormed) {a b : Node t} (order : a.Leads b) :
    a.span.start ≤ b.span.start := by
  rcases order with above | before
  · exact ((Span.covers_iff ..).mp (wf.covers_of_mem_lineage above)).1
  · have apart := wf.stop_le_start_of_before before
    have width := wf.ordered a
    omega

section Nearest

variable {lens : Lens} {category : Category} {n current m q : Node t}

/-- The node lies below `n`, belongs to the category, and starts after `current` does. -/
def Lens.isAhead (lens : Lens) (category : Category) (n current m : Node t) : Bool :=
  m.ancestors.contains n && lens.belongs category m && current.span.start < m.span.start

theorem Lens.isAhead_iff : lens.isAhead category n current m = true ↔
    n ∈ m.ancestors ∧ lens.belongs category m = true ∧ current.span.start < m.span.start := by
  simp [isAhead, and_assoc]

theorem Tree.WellFormed.jump_forward_eq_head? (wf : t.WellFormed) (lens : Lens)
    (category : Category) (n current : Node t) :
    lens.jump n current category .forward =
      (t.nodes.filter (lens.isAhead category n current)).head? := by
  refine Node.eq_head?_filter_nodes (fun lost q => ?_) fun m found => ?_
  · by_contra ahead
    obtain ⟨below, member, after⟩ := Lens.isAhead_iff.mp (Bool.eq_true_of_not_eq_false ahead)
    obtain ⟨m, again, _⟩ := wf.jump_forward_first below member after
    rw [lost] at again
    cases again
  · refine ⟨Lens.isAhead_iff.mpr (lens.jump_forward_spec found), fun q ahead => ?_⟩
    obtain ⟨below, member, after⟩ := Lens.isAhead_iff.mp ahead
    exact wf.leads_of_jump_forward found below member after

/-- Between the start of the current node and that of the target of a forward jump no node of the
category starts: none below the node that was searched, and none at all if the current node lies
there. -/
theorem Tree.WellFormed.start_le_of_jump_forward (wf : t.WellFormed)
    (found : lens.jump n current category .forward = some m)
    (member : lens.belongs category q = true) (near : n ∈ q.ancestors ∨ n ∈ current.lineage)
    (after : current.span.start < q.span.start) : m.span.start ≤ q.span.start := by
  have searched (below : n ∈ q.ancestors) : m.span.start ≤ q.span.start :=
    wf.start_le_of_leads (wf.leads_of_jump_forward found below member after)
  rcases near with below | around
  · exact searched below
  · have outer := (Span.covers_iff ..).mp (wf.covers_of_mem_lineage around)
    rcases Node.lineage_or_before n q with above | under | before | behind
    · refine searched (Node.mem_ancestors_iff.mpr ⟨above, ?_⟩)
      rintro rfl
      omega
    · have inner := (Span.covers_iff ..).mp (wf.covers_of_mem_lineage under)
      omega
    · -- The target lies inside `n`, which ends before `q` starts.
      have inside := (Node.mem_ancestors_iff.mp (lens.jump_forward_spec found).1).1
      have target := (Span.covers_iff ..).mp (wf.covers_of_mem_lineage inside)
      have apart := wf.stop_le_start_of_before before
      have width := wf.ordered m
      omega
    · have apart := wf.stop_le_start_of_before behind
      have width := wf.ordered q
      omega

theorem Tree.WellFormed.jump_backward_eq_none_iff (wf : t.WellFormed) :
    lens.jump n current category .backward = none ↔ ∀ q : Node t, n ∈ q.ancestors →
      lens.belongs category q = true → current.span.start ≤ q.span.start := by
  constructor
  · intro lost q below member
    by_contra! before
    obtain ⟨m, found, _⟩ := wf.jump_backward_last below member before
    rw [lost] at found
    cases found
  · intro late
    cases found : lens.jump n current category .backward with
    | none => rfl
    | some m =>
      obtain ⟨below, member, before⟩ := lens.jump_backward_spec found
      have after := late m below member
      omega

/-- A forward jump leads to the first node, in pre-order, of those below `n` that belong to the
category and start after the current node does. No node of the category starts in between, and
the target is neither the current node nor around it. A backward jump leads to a node of the
category below `n` that has the last start before the current one, with none around it that
starts there too; it leads nowhere only where none starts before. -/
theorem Lens.jump_leads_to_nearest (wf : t.WellFormed) (lens : Lens) (category : Category)
    (n current : Node t) :
    lens.jump n current category .forward =
      (t.nodes.filter (lens.isAhead category n current)).head? ∧
    (∀ m, lens.jump n current category .forward = some m →
      m ∉ current.lineage ∧
      ∀ q : Node t, lens.belongs category q = true → n ∈ q.ancestors ∨ n ∈ current.lineage →
        ¬ (current.span.start < q.span.start ∧ q.span.start < m.span.start)) ∧
    (lens.jump n current category .backward = none ↔
      ∀ q : Node t, n ∈ q.ancestors → lens.belongs category q = true →
        current.span.start ≤ q.span.start) ∧
    ∀ m, lens.jump n current category .backward = some m →
      (n ∈ m.ancestors ∧ lens.belongs category m = true ∧ m.span.start < current.span.start) ∧
      ∀ q : Node t, n ∈ q.ancestors → lens.belongs category q = true →
        q.span.start < current.span.start →
          q.span.start ≤ m.span.start ∧ (q.span.start = m.span.start → q ∉ m.ancestors) := by
  refine ⟨wf.jump_forward_eq_head? lens category n current, ?_, wf.jump_backward_eq_none_iff, ?_⟩
  · intro m found
    have ahead := (lens.jump_forward_spec found).2.2
    constructor
    · intro above
      have outer := (Span.covers_iff ..).mp (wf.covers_of_mem_lineage above)
      omega
    · rintro q member near ⟨after, before⟩
      have upto := wf.start_le_of_jump_forward found member near after
      omega
  · intro m found
    refine ⟨lens.jump_backward_spec found, fun q below member before => ?_⟩
    exact wf.start_le_of_jump_backward found below member before

/-- Statements, calls and arguments count as expressions. -/
def Lens.ofExpressions : Lens :=
  ⟨.full, { members := [(.expression, "statement"), (.expression, "call"),
    (.expression, "arguments")] }⟩

/-- From the start of a block a jump forward leads to the statement in it, not to the call that
fills the statement, and from its end a jump back leads to the arguments of the call. -/
theorem Lens.jumps_in_block_lead_to_nearest :
    Tree.callInBlock.WellFormed ∧
    Lens.ofExpressions.jump (Node.root Tree.callInBlock) ⟨[0, 0], rfl⟩ .expression .forward =
      some ⟨[1, 0], rfl⟩ ∧
    (Tree.callInBlock.nodes.filter (Lens.ofExpressions.isAhead .expression
      (Node.root Tree.callInBlock) ⟨[0, 0], rfl⟩)).head? = some ⟨[1, 0], rfl⟩ ∧
    Lens.ofExpressions.jump (Node.root Tree.callInBlock) ⟨[2, 0], rfl⟩ .expression .backward =
      some ⟨[1, 0, 1, 0], rfl⟩ ∧
    ∀ q : Node Tree.callInBlock, Node.root Tree.callInBlock ∈ q.ancestors →
      Lens.ofExpressions.belongs .expression q = true → q.span.start < 9 → q.span.start ≤ 5 := by
  have wf : Tree.callInBlock.WellFormed := by decide
  have forward : Lens.ofExpressions.jump (Node.root Tree.callInBlock) ⟨[0, 0], rfl⟩ .expression
      .forward = some ⟨[1, 0], rfl⟩ := by decide
  have backward : Lens.ofExpressions.jump (Node.root Tree.callInBlock) ⟨[2, 0], rfl⟩ .expression
      .backward = some ⟨[1, 0, 1, 0], rfl⟩ := by decide
  refine ⟨wf, forward, ?_, backward, fun q below member before => ?_⟩
  · rw [← (jump_leads_to_nearest wf Lens.ofExpressions .expression _ _).1, forward]
  · have last := (jump_leads_to_nearest wf Lens.ofExpressions .expression _ _).2.2.2 _ backward
    exact (last.2 q below member before).1

end Nearest

section Caret

variable {lens : Lens} {category : Category} {r : Request}

theorem Node.clamp_le (n : Node t) (offset : Nat) : n.clamp offset ≤ offset := by
  unfold clamp
  split
  · rename_i past
    simp only [Bool.and_eq_true, decide_eq_true_eq] at past
    omega
  · exact Nat.le_refl _

/-- A node found around a caret, unless it is where the search began, starts no later than the
caret. -/
theorem Node.start_le_of_atOffset {n : Node t} {offset : Nat} (moved : n.atOffset offset ≠ n) :
    (n.atOffset offset).span.start ≤ offset := by
  have inside := (Span.contains_iff ..).mp (contains_of_atOffset_ne moved)
  have upto := n.clamp_le offset
  omega

theorem Request.current_of_bare (bare : r.selection = none) : r.current = Span.caret r.caret := by
  simp [Request.current, bare]

theorem exists_target_of_moved {caret : Nat} {selection : Option Span} {kind : String}
    (moved : navigate t lens r = .moved caret selection kind) :
    ∃ m, lens.locate (Node.root t) r.current r.motion = some m ∧ m.span.start = caret := by
  unfold navigate at moved
  cases found : lens.locate (Node.root t) r.current r.motion with
  | none => simp [found, Outcome.ofTarget] at moved
  | some m =>
    simp only [found, Outcome.ofTarget, Outcome.moved.injEq] at moved
    exact ⟨m, rfl, moved.1⟩

namespace Tree.WellFormed

/-- A node that starts after the one around the caret and not after the caret lies inside that
one, and the caret is past it. -/
theorem ended_of_start_le (wf : t.WellFormed) {offset : Nat} {q : Node t}
    (inside : (Node.root t).span.contains offset = true)
    (after : ((Node.root t).atOffset offset).span.start < q.span.start)
    (upto : q.span.start ≤ offset) :
    (Node.root t).atOffset offset ∈ q.ancestors ∧ q.span.stop ≤ offset := by
  have empty : (Span.caret offset).isEmpty = true := by simp [Span.caret, Span.isEmpty]
  have here := (Node.root t).covering_caret offset
  have probed : (Node.root t).probe (Span.caret offset) = ⟨offset, offset + 1⟩ :=
    wf.probe_of_contains empty inside
  have around : ((Node.root t).atOffset offset).span.contains offset = true := by
    rw [← Span.covers_byte, ← probed, ← here]
    apply Node.covering_covers
    rw [probed, Span.covers_byte, inside]
  have ended : q.span.stop ≤ offset := by
    by_contra! further
    have cover : q.span.covers ((Node.root t).probe (Span.caret offset)) = true := by
      rw [probed, Span.covers_byte, Span.contains_iff]
      omega
    have above := wf.mem_lineage_covering q.root_mem_lineage cover
    rw [here] at above
    have outer := (Span.covers_iff ..).mp (wf.covers_of_mem_lineage above)
    omega
  rw [Span.contains_iff] at around
  refine ⟨?_, ended⟩
  rcases Node.lineage_or_before ((Node.root t).atOffset offset) q with
    above | under | before | behind
  · refine Node.mem_ancestors_iff.mpr ⟨above, ?_⟩
    intro same
    rw [same] at after
    omega
  · have outer := (Span.covers_iff ..).mp (wf.covers_of_mem_lineage under)
    omega
  · have apart := wf.stop_le_start_of_before before
    omega
  · have apart := wf.stop_le_start_of_before behind
    have width := wf.ordered q
    omega

/-- A forward jump passes the caret unless some node of the category starts after the current
node and not after the caret. -/
theorem lt_start_of_jump_iff (wf : t.WellFormed) {current m : Node t}
    (found : lens.jump (Node.root t) current category .forward = some m) (offset : Nat) :
    offset < m.span.start ↔ ∀ q : Node t, lens.IsStop category q →
      current.span.start < q.span.start → offset < q.span.start := by
  constructor
  · intro past q stop after
    have upto := wf.start_le_of_jump_forward found stop.2 (.inl stop.below) after
    omega
  · intro all
    obtain ⟨goal, after⟩ := jump_isStop found
    exact all m goal after

/-- Where the caret lies inside the root's range, the nodes that a jump could stop at between the
start of the node at the caret and the caret are those that lie inside that node, start after it
and end at the caret or before. -/
theorem isStop_upto_caret_iff (wf : t.WellFormed) {offset : Nat}
    (inside : (Node.root t).span.contains offset = true) (q : Node t) :
    (lens.IsStop category q ∧ ((Node.root t).atOffset offset).span.start < q.span.start ∧
        q.span.start ≤ offset) ↔
      (Node.root t).atOffset offset ∈ q.ancestors ∧ lens.belongs category q = true ∧
        ((Node.root t).atOffset offset).span.start < q.span.start ∧ q.span.stop ≤ offset := by
  constructor
  · rintro ⟨stop, after, upto⟩
    obtain ⟨below, ended⟩ := wf.ended_of_start_le inside after upto
    exact ⟨below, stop.2, after, ended⟩
  · rintro ⟨below, member, after, ended⟩
    have inner := Node.ne_root_of_mem_ancestors below
    have width := wf.ordered q
    exact ⟨⟨Node.isRoot_eq_false_iff.mpr inner, member⟩, after, Nat.le_trans width ended⟩

/-- So a jump from there passes the caret unless one of those nodes has ended before the caret. -/
theorem lt_start_of_caret_jump_iff (wf : t.WellFormed) {offset : Nat} {m : Node t}
    (inside : (Node.root t).span.contains offset = true)
    (found : lens.jump (Node.root t) ((Node.root t).atOffset offset) category .forward = some m) :
    offset < m.span.start ↔ ∀ q : Node t, (Node.root t).atOffset offset ∈ q.ancestors →
      lens.belongs category q = true →
        ((Node.root t).atOffset offset).span.start < q.span.start → offset < q.span.stop := by
  rw [wf.lt_start_of_jump_iff found]
  constructor
  · intro all q below member after
    by_contra! ended
    obtain ⟨stop, _, upto⟩ := (wf.isStop_upto_caret_iff inside q).mpr ⟨below, member, after, ended⟩
    have past := all q stop after
    omega
  · intro all q stop after
    by_contra! upto
    obtain ⟨below, member, _, ended⟩ := (wf.isStop_upto_caret_iff inside q).mp ⟨stop, after, upto⟩
    have past := all q below member after
    omega

/-- A backward jump from the node at a caret stays behind the caret. -/
theorem start_lt_of_jump (wf : t.WellFormed) {offset : Nat} {m : Node t}
    (found : lens.jump (Node.root t) ((Node.root t).atOffset offset) category .backward = some m) :
    m.span.start < offset := by
  obtain ⟨_, _, before⟩ := lens.jump_backward_spec found
  by_cases stayed : (Node.root t).atOffset offset = Node.root t
  · -- Nothing below the root starts before it.
    have outer := (Span.covers_iff ..).mp (wf.covers_of_mem_lineage m.root_mem_lineage)
    rw [stayed] at before
    omega
  · have upto := Node.start_le_of_atOffset stayed
    omega

end Tree.WellFormed

/-- A node without children has nothing below it. -/
theorem Node.not_mem_ancestors_of_isLeaf {n q : Node t} (leaf : n.isLeaf = true) :
    n ∉ q.ancestors := by
  intro above
  obtain ⟨higher, different⟩ := mem_ancestors_iff.mp above
  obtain ⟨c, parent, _⟩ := exists_child_toward higher different.symm
  have member := mem_children_iff.mpr parent
  rw [isLeaf, beq_iff_eq, ← length_children, List.length_eq_zero_iff] at leaf
  rw [leaf] at member
  cases member

/-- A jump asked for at a bare caret. Backward, it moves the caret back. Forward, it moves the
caret past the start of the node at the caret, and past the caret itself if and only if no node of
the category starts in between. Inside the root's range those nodes are exactly the nodes of the
category in the node at the caret that start after it and end at the caret or before; so a jump from
a leaf goes forward. -/
theorem Lens.jump_from_caret (wf : t.WellFormed) (lens : Lens) (category : Category) (r : Request)
    (bare : r.selection = none) {current : Node t}
    (here : (Node.root t).atOffset r.caret = current) {caret : Nat} {selection : Option Span}
    {kind : String} (moved : navigate t lens r = .moved caret selection kind) :
    (r.motion = .previous category → caret < r.caret) ∧
    (r.motion = .next category →
      current.span.start < caret ∧
      (r.caret < caret ↔ ∀ q : Node t, lens.IsStop category q →
        current.span.start < q.span.start → r.caret < q.span.start) ∧
      ((Node.root t).span.contains r.caret = true →
        (∀ q : Node t, (lens.IsStop category q ∧ current.span.start < q.span.start ∧
            q.span.start ≤ r.caret) ↔
          current ∈ q.ancestors ∧ lens.belongs category q = true ∧
            current.span.start < q.span.start ∧ q.span.stop ≤ r.caret) ∧
        (r.caret < caret ↔ ∀ q : Node t, current ∈ q.ancestors →
          lens.belongs category q = true → current.span.start < q.span.start →
            r.caret < q.span.stop) ∧
        (current.isLeaf = true → r.caret < caret))) := by
  obtain ⟨m, located, rfl⟩ := exists_target_of_moved moved
  rw [Request.current_of_bare bare] at located
  subst here
  constructor
  · intro asked
    rw [asked, Lens.locate, Node.covering_caret] at located
    exact wf.start_lt_of_jump located
  · intro asked
    rw [asked, Lens.locate, Node.covering_caret] at located
    refine ⟨(lens.jump_forward_spec located).2.2, wf.lt_start_of_jump_iff located r.caret, ?_⟩
    intro inside
    have passes_iff := wf.lt_start_of_caret_jump_iff inside located
    refine ⟨wf.isStop_upto_caret_iff inside, passes_iff, ?_⟩
    refine fun leaf => passes_iff.mpr fun q below => ?_
    exact absurd below (Node.not_mem_ancestors_of_isLeaf leaf)

/-- From a caret inside the name of a call a jump goes forward to the arguments, so no expression
starts between the start of the name and the caret. -/
theorem Lens.jump_from_name_in_block :
    Tree.callInBlock.WellFormed ∧
    (Node.root Tree.callInBlock).atOffset 3 = ⟨[0, 0, 1, 0], rfl⟩ ∧
    navigate Tree.callInBlock Lens.ofExpressions
      { language := "", caret := 3, motion := .next .expression } = .moved 5 none "arguments" ∧
    ∀ q : Node Tree.callInBlock, Lens.ofExpressions.IsStop .expression q →
      2 < q.span.start → 3 < q.span.start := by
  have wf : Tree.callInBlock.WellFormed := by decide
  have here : (Node.root Tree.callInBlock).atOffset 3 = ⟨[0, 0, 1, 0], rfl⟩ := by decide
  have moved : navigate Tree.callInBlock Lens.ofExpressions
      { language := "", caret := 3, motion := .next .expression } =
        .moved 5 none "arguments" := by decide
  obtain ⟨_, passes_iff, _⟩ := (jump_from_caret wf Lens.ofExpressions .expression
    { language := "", caret := 3, motion := .next .expression } rfl here moved).2 rfl
  exact ⟨wf, here, moved, passes_iff.mp (by decide)⟩

/-- From a caret in the gap after the statement of a block a jump to the next statement goes back
to that very statement: it starts after the block does. -/
theorem Lens.jump_from_gap_goes_back :
    Tree.callInBlock.WellFormed ∧ (Node.root Tree.callInBlock).span.contains 8 = true ∧
    navigate Tree.callInBlock ⟨.full, { members := [(.statement, "statement")] }⟩
      { language := "", caret := 8, motion := .next .statement } = .moved 2 none "statement" ∧
    ¬ 8 < 2 := by
  decide

end Caret

end TreeNav
