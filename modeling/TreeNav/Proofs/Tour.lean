import TreeNav.Proofs.Nearest
import TreeNav.Proofs.Run
import TreeNav.Proofs.Targets

/-!
The tour of a category. A host that repeats a jump comes by every offset at which a node of
the category starts, nearest first, each time at the outermost of the nodes that start there.
It makes no difference whether the host keeps the selection of each move or its caret alone:
either way the next jump goes from a node with the same start.
-/
namespace TreeNav

namespace Direction

/-- The offset `b` comes after `a`, or before it. -/
def Past : Direction → Nat → Nat → Prop
  | forward, a, b => a < b
  | backward, a, b => b < a

/-- The jump in this direction. -/
def jump : Direction → Category → Motion
  | forward => .next
  | backward => .previous

/-- How many offsets of a range are left on this side of an offset. -/
def room (whole : Span) : Direction → Nat → Nat
  | forward, offset => whole.stop - offset
  | backward, offset => offset

theorem changesSelection_jump (direction : Direction) (category : Category) :
    (direction.jump category).changesSelection = false := by
  cases direction <;> rfl

theorem room_lt_of_past {direction : Direction} {whole : Span} {a b : Nat}
    (past : direction.Past a b) (inside : b ≤ whole.stop) :
    direction.room whole b < direction.room whole a := by
  cases direction with
  | forward =>
    simp only [Past, room] at *
    omega
  | backward => exact past

theorem Past.trans {direction : Direction} {a b c : Nat} (first : direction.Past a b)
    (second : direction.Past b c) : direction.Past a c := by
  cases direction <;> simp only [Past] at * <;> omega

end Direction

variable {t : Tree}

namespace Lens

variable (lens : Lens) (category : Category)

/-- The node is one that a jump may stop at. -/
def IsStop (n : Node t) : Prop := n.isRoot = false ∧ lens.belongs category n = true

/-- Of the stops that start where `n` does, `n` is one and is around all others. -/
def IsOutermost (n : Node t) : Prop :=
  lens.IsStop category n ∧
    ∀ q : Node t, lens.IsStop category q → q.span.start = n.span.start → n ∈ q.lineage

variable {lens category}

theorem IsStop.below {n : Node t} (stop : lens.IsStop category n) : Node.root t ∈ n.ancestors :=
  Node.mem_ancestors_iff.mpr
    ⟨n.root_mem_lineage, (Node.isRoot_eq_false_iff.mp stop.1).symm⟩

theorem isStop_of_below {n : Node t} (below : Node.root t ∈ n.ancestors)
    (member : lens.belongs category n = true) : lens.IsStop category n :=
  ⟨Node.isRoot_eq_false_iff.mpr (Node.ne_root_of_mem_ancestors below), member⟩

theorem locate_jump (lens : Lens) (category : Category) (direction : Direction) (selection : Span) :
    lens.locate (Node.root t) selection (direction.jump category) =
      lens.jump (Node.root t) ((Node.root t).covering selection) category direction := by
  cases direction <;> rfl

end Lens

namespace Tree.WellFormed

variable {lens : Lens} {category : Category} {direction : Direction} {current m q : Node t}

/-- Stops that start together lie one around the other. -/
theorem lineage_of_same_start (wf : t.WellFormed) (filled : t.Filled)
    (left : lens.IsStop category m) (right : lens.IsStop category q)
    (same : q.span.start = m.span.start) : m ∈ q.lineage ∨ q ∈ m.lineage := by
  have width := (Span.isEmpty_eq_false_iff _).mp (filled m left.1)
  have width' := (Span.isEmpty_eq_false_iff _).mp (filled q right.1)
  have byte : (⟨m.span.start, m.span.start + 1⟩ : Span).isEmpty = false := by simp [Span.isEmpty]
  apply wf.lineage_of_common byte
  · rw [Span.covers_byte, Span.contains_iff]
    omega
  · rw [Span.covers_byte, Span.contains_iff]
    omega

theorem jump_eq_none (wf : t.WellFormed)
    (lost : lens.jump (Node.root t) current category direction = none)
    (stop : lens.IsStop category q) : ¬ direction.Past current.span.start q.span.start := by
  intro past
  cases direction with
  | forward =>
    obtain ⟨m, found, _⟩ := wf.jump_forward_first stop.below stop.2 past
    rw [lost] at found
    cases found
  | backward =>
    obtain ⟨m, found, _⟩ := wf.jump_backward_last stop.below stop.2 past
    rw [lost] at found
    cases found

theorem jump_isStop (found : lens.jump (Node.root t) current category direction = some m) :
    lens.IsStop category m ∧ direction.Past current.span.start m.span.start := by
  cases direction with
  | forward =>
    obtain ⟨below, member, past⟩ := lens.jump_forward_spec found
    exact ⟨Lens.isStop_of_below below member, past⟩
  | backward =>
    obtain ⟨below, member, past⟩ := lens.jump_backward_spec found
    exact ⟨Lens.isStop_of_below below member, past⟩

/-- One jump goes to the nearest start, and there to the outermost node. -/
theorem jump_nearest (wf : t.WellFormed) (filled : t.Filled)
    (found : lens.jump (Node.root t) current category direction = some m)
    (stop : lens.IsStop category q) (past : direction.Past current.span.start q.span.start) :
    (q.span.start = m.span.start ∧ m ∈ q.lineage) ∨ direction.Past m.span.start q.span.start := by
  have goal := (jump_isStop found).1
  cases direction with
  | forward =>
    rcases wf.leads_of_jump_forward found stop.below stop.2 past with above | before
    · have inside := (Span.covers_iff ..).mp (wf.covers_of_mem_lineage above)
      rcases Nat.eq_or_lt_of_le inside.1 with same | less
      · exact .inl ⟨same.symm, above⟩
      · exact .inr less
    · have width := (Span.isEmpty_eq_false_iff _).mp (filled m goal.1)
      have apart := wf.stop_le_start_of_before before
      exact .inr (Nat.lt_of_lt_of_le width apart)
  | backward =>
    obtain ⟨upto, alone⟩ := wf.start_le_of_jump_backward found stop.below stop.2 past
    rcases Nat.eq_or_lt_of_le upto with same | less
    · refine .inl ⟨same, ?_⟩
      rcases wf.lineage_of_same_start filled goal stop same with above | under
      · exact above
      · by_cases equal : q = m
        · exact equal ▸ q.self_mem_lineage
        · exact absurd (Node.mem_ancestors_iff.mpr ⟨under, equal⟩) (alone same)
    · exact .inr less

theorem jump_isOutermost (wf : t.WellFormed) (filled : t.Filled)
    (found : lens.jump (Node.root t) current category direction = some m) :
    lens.IsOutermost category m := by
  obtain ⟨goal, past⟩ := jump_isStop found
  refine ⟨goal, fun q stop same => ?_⟩
  rcases wf.jump_nearest filled found stop (same ▸ past) with ⟨_, above⟩ | further
  · exact above
  · rw [same] at further
    cases direction <;> exact absurd further (Nat.lt_irrefl _)

end Tree.WellFormed

namespace Session

variable {lens : Lens} {language : String} {category : Category} {direction : Direction}

/-- The offset at which the node starts from which the next motion goes. -/
def origin (s : Session) (t : Tree) : Nat := ((Node.root t).covering s.current).span.start

/-- After a jump the next one goes from where the target starts, whether a selection or the
caret alone was kept. -/
theorem origin_move (wf : t.WellFormed) (filled : t.Filled) {s : Session} {n : Node t}
    (found : s.target t lens (direction.jump category) = some n) :
    (s.move t lens language (direction.jump category)).origin t = n.span.start := by
  have held := wf.locate_held filled found
  cases selects : s.select with
  | true =>
    rw [origin, current_move wf selects found, (wf.covering_span held).1]
  | false =>
    rw [origin, move_of_some_unselected (direction.changesSelection_jump category) selects found]
    have caret : (Span.caret n.span.start).isEmpty = true := by simp [Span.caret, Span.isEmpty]
    exact (wf.covering_of_start caret held rfl).2

/-- The nodes are a tour of the stops past an offset: one for each start of a stop, nearest
first, and each the outermost there. -/
structure IsTour (lens : Lens) (category : Category) (direction : Direction) (origin : Nat)
    (visited : List (Node t)) : Prop where
  ordered : (visited.map fun n => n.span.start).Pairwise direction.Past
  complete : ∀ offset, offset ∈ (visited.map fun n => n.span.start) ↔
    direction.Past origin offset ∧ ∃ q : Node t, lens.IsStop category q ∧ q.span.start = offset
  outermost : ∀ n ∈ visited, lens.IsOutermost category n

theorem isTour_nil {origin : Nat}
    (ended : ∀ q : Node t, lens.IsStop category q → ¬ direction.Past origin q.span.start) :
    IsTour lens category direction origin ([] : List (Node t)) := by
  refine ⟨List.Pairwise.nil, fun offset => ?_, by simp⟩
  simp only [List.map_nil, List.not_mem_nil, false_iff]
  rintro ⟨past, q, stop, rfl⟩
  exact ended q stop past

/-- A tour that goes on from the nearest stop, with that stop before it. -/
theorem IsTour.cons {origin : Nat} {m : Node t} {visited : List (Node t)}
    (past : direction.Past origin m.span.start) (outermost : lens.IsOutermost category m)
    (nearest : ∀ q : Node t, lens.IsStop category q → direction.Past origin q.span.start →
      q.span.start = m.span.start ∨ direction.Past m.span.start q.span.start)
    (rest : IsTour lens category direction m.span.start visited) :
    IsTour lens category direction origin (m :: visited) := by
  refine ⟨?_, fun offset => ?_, ?_⟩
  · rw [List.map_cons, List.pairwise_cons]
    exact ⟨fun offset later => ((rest.complete offset).mp later).1, rest.ordered⟩
  · rw [List.map_cons, List.mem_cons, rest.complete]
    constructor
    · rintro (rfl | ⟨further, stop⟩)
      · exact ⟨past, m, outermost.1, rfl⟩
      · exact ⟨past.trans further, stop⟩
    · rintro ⟨past', q, stop, rfl⟩
      rcases nearest q stop past' with same | further
      · exact .inl same
      · exact .inr ⟨further, q, stop, rfl⟩
  · simpa using ⟨outermost, rest.outermost⟩

/-- A host that repeats a jump hears of the nodes of a tour one after the other, and then that
there is nowhere to go. -/
theorem exists_tour (wf : t.WellFormed) (filled : t.Filled) (lens : Lens) (language : String)
    (category : Category) (direction : Direction) (s : Session) :
    ∃ visited : List (Node t), IsTour lens category direction (s.origin t) visited ∧
      ∀ k, s.answer t lens language (direction.jump category) k =
        .reporting s.select visited[k]? := by
  have plain := direction.changesSelection_jump category
  cases found : s.target t lens (direction.jump category) with
  | none =>
    have lost := found
    rw [target, Lens.locate_jump] at lost
    refine ⟨[], isTour_nil fun q => wf.jump_eq_none lost, fun k => ?_⟩
    rw [answer, repeated_of_none found, ask_eq_reporting plain, found]
    rfl
  | some m =>
    have goes := found
    rw [target, Lens.locate_jump] at goes
    have past := (Tree.WellFormed.jump_isStop goes).2
    have start : (s.move t lens language (direction.jump category)).origin t = m.span.start :=
      origin_move wf filled found
    -- The rest of the tour starts where the target does.
    obtain ⟨visited, tour, answers⟩ := exists_tour wf filled lens language category direction
      (s.move t lens language (direction.jump category))
    rw [start] at tour
    refine ⟨m :: visited, tour.cons past (wf.jump_isOutermost filled goes) ?_, fun k => ?_⟩
    · intro q stop past'
      exact (wf.jump_nearest filled goes stop past').imp_left And.left
    · cases k with
      | zero => simp [answer, repeated, ask_eq_reporting plain, found]
      | succ k => rw [← answer_move, answers, select_move, List.getElem?_cons_succ]
termination_by direction.room (Node.root t).span (s.origin t)
decreasing_by
  rw [start]
  have inside := (Span.covers_iff ..).mp (wf.covers_of_mem_lineage m.root_mem_lineage)
  have width := wf.ordered m
  exact Direction.room_lt_of_past past (by omega)

/-- Repeating a jump visits one node for each offset past the start of the current node at
which a node of the category starts below the root, nearest first, and that node is around all
others that start there; after the last one the motion leads nowhere. The answers differ only
in whether they carry a selection. -/
theorem repeated_jump_tours_category (wf : t.WellFormed) (filled : t.Filled) (lens : Lens)
    (language : String) (category : Category) (direction : Direction) (s : Session) :
    ∃ visited : List (Node t),
      (∀ k, s.answer t lens language (direction.jump category) k =
        .reporting s.select visited[k]?) ∧
      (visited.map fun n => n.span.start).Pairwise direction.Past ∧
      (∀ offset, offset ∈ (visited.map fun n => n.span.start) ↔
        direction.Past ((Node.root t).covering s.current).span.start offset ∧
          ∃ q : Node t, lens.IsStop category q ∧ q.span.start = offset) ∧
      ∀ n ∈ visited, lens.IsOutermost category n := by
  obtain ⟨visited, tour, answers⟩ := exists_tour wf filled lens language category direction s
  exact ⟨visited, answers, tour.ordered, tour.complete, tour.outermost⟩

/-- From the start of a block a host that keeps its caret alone comes by the statement, not the
call that fills it, and by the arguments of the call; then the tour ends. -/
theorem expressions_toured_in_block :
    Tree.callInBlock.WellFormed ∧ Tree.callInBlock.Filled ∧
    (List.range 3).map (({ caret := 0 } : Session).answer Tree.callInBlock
      ⟨.full, { members := [(.expression, "statement"), (.expression, "call"),
        (.expression, "arguments")] }⟩ "" (.next .expression)) =
      [.moved 2 none "statement", .moved 5 none "arguments", .noMovement] ∧
    ∃ visited : List (Node Tree.callInBlock),
      (∀ k, ({ caret := 0 } : Session).answer Tree.callInBlock
        ⟨.full, { members := [(.expression, "statement"), (.expression, "call"),
          (.expression, "arguments")] }⟩ "" (.next .expression) k =
            .reporting false visited[k]?) ∧
      (visited.map fun n => n.span.start).Pairwise (· < ·) := by
  have wf : Tree.callInBlock.WellFormed := by decide
  have filled : Tree.callInBlock.Filled := by decide
  obtain ⟨visited, answers, ordered, _⟩ := repeated_jump_tours_category wf filled
    ⟨.full, { members := [(.expression, "statement"), (.expression, "call"),
      (.expression, "arguments")] }⟩ "" .expression .forward { caret := 0 }
  exact ⟨wf, filled, by decide, visited, answers, ordered⟩

end Session

end TreeNav
