import TreeNav.Proofs.Run
import TreeNav.Proofs.Targets

/-!
Progress of a repeated motion. A host that repeats a motion and keeps the selections it is
given never sees a range again: ranges move on, back, outwards or inwards with every move,
as the motion says. So the motion comes to an end within as many moves as there are nodes.
-/
namespace TreeNav

/-- How the range of one move lies to that of the move before. -/
def Motion.Advances (motion : Motion) (before after : Span) : Prop :=
  match motion with
  | .nextSibling | .next _ => before.start < after.start
  | .previousSibling | .previous _ => after.start < before.start
  | .parent | .expand => after.covers before = true ∧ after ≠ before
  | .firstChild | .lastChild | .shrink => before.covers after = true ∧ after ≠ before

namespace Motion

theorem Advances.ne {motion : Motion} {before after : Span} (step : motion.Advances before after) :
    before ≠ after := by
  rintro rfl
  cases motion <;> simp [Advances] at step

theorem Advances.trans {motion : Motion} {a b c : Span} (first : motion.Advances a b)
    (second : motion.Advances b c) : motion.Advances a c := by
  have outward : ∀ {a b c : Span}, b.covers a = true ∧ b ≠ a → c.covers b = true ∧ c ≠ b →
      c.covers a = true ∧ c ≠ a := by
    rintro a b c ⟨inner, _⟩ ⟨outer, different⟩
    refine ⟨Span.covers_trans outer inner, ?_⟩
    rintro rfl
    exact different (Span.covers_antisymm outer inner)
  have inward : ∀ {a b c : Span}, a.covers b = true ∧ b ≠ a → b.covers c = true ∧ c ≠ b →
      a.covers c = true ∧ c ≠ a := by
    rintro a b c ⟨outer, different⟩ ⟨inner, _⟩
    refine ⟨Span.covers_trans outer inner, ?_⟩
    rintro rfl
    exact different (Span.covers_antisymm inner outer)
  cases motion with
  | nextSibling => exact Nat.lt_trans first second
  | previousSibling => exact Nat.lt_trans second first
  | next category => exact Nat.lt_trans first second
  | previous category => exact Nat.lt_trans second first
  | parent => exact outward first second
  | expand => exact outward first second
  | firstChild => exact inward first second
  | lastChild => exact inward first second
  | shrink => exact inward first second

end Motion

namespace Tree.WellFormed

variable {t : Tree} {lens : Lens}

theorem child_within (wf : t.WellFormed) {direction : Direction} {n m : Node t}
    (held : n.span.isEmpty = false)
    (found : lens.child direction ((Node.root t).covering n.span) = some m) :
    n.span.covers m.span = true ∧ m.span ≠ n.span := by
  obtain ⟨same, _, _, last⟩ := wf.covering_span held
  have parent := (lens.child_spec found).1
  have cover := wf.covers_of_mem_lineage (Node.parent_mem_lineage parent)
  rw [same] at cover
  exact ⟨cover, last m parent⟩

/-- A step of a run: from the range of a node a motion leads on as it should. -/
theorem locate_advances (wf : t.WellFormed) (filled : t.Filled) {motion : Motion} {n m : Node t}
    (held : n.span.isEmpty = false)
    (found : lens.locate (Node.root t) n.span motion = some m) :
    motion.Advances n.span m.span := by
  obtain ⟨same, _, _, _⟩ := wf.covering_span held
  have kept := wf.locate_held filled found
  have width := (Span.isEmpty_eq_false_iff _).mp held
  have width' := (Span.isEmpty_eq_false_iff _).mp kept
  cases motion with
  | nextSibling =>
    have after := wf.sibling_forward_after found
    rw [same] at after
    show n.span.start < m.span.start
    omega
  | previousSibling =>
    have before := wf.sibling_backward_before found
    rw [same] at before
    show m.span.start < n.span.start
    omega
  | parent =>
    obtain ⟨above, different, _⟩ := lens.parent_spec found
    have cover := wf.covers_of_mem_lineage (Node.mem_ancestors_iff.mp above).1
    rw [same] at cover different
    exact ⟨cover, different⟩
  | firstChild =>
    have found : lens.child .forward ((Node.root t).covering n.span) = some m := found
    exact wf.child_within held found
  | lastChild =>
    have found : lens.child .backward ((Node.root t).covering n.span) = some m := found
    exact wf.child_within held found
  | expand =>
    obtain ⟨_, different, above⟩ := Node.expand_spec held found
    have cover := wf.covers_of_mem_lineage above
    rw [same] at cover
    exact ⟨cover, different⟩
  | shrink =>
    have inside := (lens.shrink_spec found).2.2
    exact ⟨inside.covered, inside.partly⟩
  | next category =>
    have after := (lens.jump_forward_spec found).2.2
    rwa [same] at after
  | previous category =>
    have before := (lens.jump_backward_spec found).2.2
    rwa [same] at before

end Tree.WellFormed

namespace Session

variable {t : Tree} {lens : Lens} {language : String} {motion : Motion} {s : Session}

/-- Of two targets in a run the later one lies to the earlier as the motion says. -/
theorem advances_of_lt (wf : t.WellFormed) (filled : t.Filled) (selects : s.select = true)
    {j k : Nat} (less : j < k) {n m : Node t}
    (first : (s.repeated t lens language motion j).target t lens motion = some n)
    (second : (s.repeated t lens language motion k).target t lens motion = some m) :
    motion.Advances n.span m.span := by
  induction k generalizing m with
  | zero => omega
  | succ k ih =>
    obtain ⟨c, between⟩ := target_of_le (Nat.le_succ k) second
    have step : motion.Advances c.span m.span := by
      rw [target_succ wf selects between] at second
      exact wf.locate_advances filled (wf.locate_held filled between) second
    by_cases last : j = k
    · subst last
      rw [first, Option.some.injEq] at between
      exact between ▸ step
    · exact (ih (by omega) between).trans step

/-- The nodes that a run moves to are different, so they run out. -/
theorem exists_target_none (wf : t.WellFormed) (filled : t.Filled) (selects : s.select = true) :
    ∃ k ≤ t.size, (s.repeated t lens language motion k).target t lens motion = none := by
  by_contra! running
  have moves : ∀ k : Fin (t.size + 1),
      ∃ n, (s.repeated t lens language motion k).target t lens motion = some n :=
    fun k => Option.ne_none_iff_exists'.mp (running k (Nat.le_of_lt_succ k.isLt))
  choose visited at_visited using moves
  have injective : Function.Injective visited := by
    intro j k same
    by_contra different
    rcases Nat.lt_or_gt_of_ne (Fin.val_ne_of_ne different) with less | greater
    · have moved := advances_of_lt wf filled selects less (at_visited j) (at_visited k)
      exact moved.ne (congrArg Node.span same)
    · have moved := advances_of_lt wf filled selects greater (at_visited k) (at_visited j)
      exact moved.ne (congrArg Node.span same.symm)
  have count := Fintype.card_le_of_injective visited injective
  rw [Fintype.card_fin] at count
  have bound := t.card_node_le
  omega

theorem exists_target_of_range? (selects : s.select = true) {k : Nat} {range : Span}
    (reported : (s.answer t lens language motion k).range? = some range) :
    ∃ n, (s.repeated t lens language motion k).target t lens motion = some n ∧
      n.span = range := by
  rw [answer_eq_selecting selects] at reported
  cases found : (s.repeated t lens language motion k).target t lens motion with
  | none =>
    rw [found] at reported
    cases reported
  | some n =>
    rw [found] at reported
    exact ⟨n, rfl, Option.some.inj reported⟩

/-- Every answer of a run reports the range of a node or that there is none to move to; each
range lies to the one before as the motion says; no range is reported twice; and the motion
leads nowhere after at most as many moves as the tree has nodes. -/
theorem repeated_motion_progresses (wf : t.WellFormed) (filled : t.Filled) (lens : Lens)
    (language : String) (motion : Motion) (s : Session) (selects : s.select = true) :
    (∀ k, s.answer t lens language motion k = .noMovement ∨ ∃ n : Node t,
      s.answer t lens language motion k = .moved n.span.start (some n.span) n.kind) ∧
    (∀ k before after, (s.answer t lens language motion k).range? = some before →
      (s.answer t lens language motion (k + 1)).range? = some after →
        motion.Advances before after) ∧
    (∀ j k range, j < k → (s.answer t lens language motion j).range? = some range →
      (s.answer t lens language motion k).range? ≠ some range) ∧
    ∃ k ≤ t.size, s.answer t lens language motion k = .noMovement := by
  have ordered : ∀ j k before after, j < k →
      (s.answer t lens language motion j).range? = some before →
      (s.answer t lens language motion k).range? = some after → motion.Advances before after := by
    intro j k before after less first second
    obtain ⟨n, at_n, rfl⟩ := exists_target_of_range? selects first
    obtain ⟨m, at_m, rfl⟩ := exists_target_of_range? selects second
    exact advances_of_lt wf filled selects less at_n at_m
  refine ⟨?_, ?_, ?_, ?_⟩
  · intro k
    rw [answer_eq_selecting selects]
    cases (s.repeated t lens language motion k).target t lens motion with
    | none => exact .inl rfl
    | some n => exact .inr ⟨n, rfl⟩
  · intro k before after
    exact ordered k (k + 1) before after (Nat.lt_succ_self k)
  · intro j k range less first second
    exact (ordered j k range range less first second).ne rfl
  · obtain ⟨k, le, stays⟩ := exists_target_none wf filled selects
    exact ⟨k, le, by rw [answer_eq_selecting selects, stays]; rfl⟩

/-- From a caret in the name of a call the parents come to an end, the call first. -/
theorem parent_progresses_in_block :
    Tree.callInBlock.WellFormed ∧ Tree.callInBlock.Filled ∧
    ({ caret := 3, select := true } : Session).answer Tree.callInBlock
      ⟨.full, { anonymousTrivial := true }⟩ "" .parent 0 = .moved 2 (some ⟨2, 8⟩) "call" ∧
    ∃ k ≤ Tree.callInBlock.size, ({ caret := 3, select := true } : Session).answer
      Tree.callInBlock ⟨.full, { anonymousTrivial := true }⟩ "" .parent k = .noMovement := by
  have wf : Tree.callInBlock.WellFormed := by decide
  have filled : Tree.callInBlock.Filled := by decide
  exact ⟨wf, filled, by decide, (repeated_motion_progresses wf filled _ _ _ _ rfl).2.2.2⟩

end Session

end TreeNav
