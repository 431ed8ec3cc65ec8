import TreeNav.Proofs.Resolution

/-!
Every place can be reached. First children lead down the levels and next siblings along
them; a level whose node fills the one above is there already. So a host that starts from
the whole tree comes to select any node that has only significant nodes around it.
-/
namespace TreeNav

variable {t : Tree} {lens : Lens} {language : String}

/-- Of the children from an index on, the first significant one comes no later than a given
significant one. -/
theorem Lens.exists_first_from {c p : Node t} {i j : Nat} (at_c : c.path = i :: p.path)
    (stop : lens.isSignificant c = true) (le : j ≤ i) :
    ∃ (m : Node t) (k : Nat), m.path = k :: p.path ∧ j ≤ k ∧ k ≤ i ∧
      (p.children.drop j).find? lens.isSignificant = some m := by
  have inside := Node.lt_length_children at_c
  have later : (p.children.drop j)[i - j]? = some c := by
    rw [List.getElem?_drop, Nat.add_sub_cancel' le]
    exact Node.getElem?_children_eq_some_iff.mpr at_c
  have exists_found : ((p.children.drop j).find? lens.isSignificant).isSome = true :=
    List.find?_isSome.mpr ⟨c, List.mem_of_getElem? later, stop⟩
  obtain ⟨m, found⟩ := Option.isSome_iff_exists.mp exists_found
  obtain ⟨_, k, bound, here, skipped⟩ := List.find?_eq_some_iff_getElem.mp found
  have at_m : m.path = (j + k) :: p.path := by
    rw [← Node.getElem?_children_eq_some_iff, ← List.getElem?_drop, List.getElem?_eq_getElem bound,
      here]
  refine ⟨m, j + k, at_m, Nat.le_add_right j k, ?_, found⟩
  by_contra! passed
  have missed := skipped (i - j) (by omega)
  rw [List.getElem?_eq_getElem (by omega), Option.some.injEq] at later
  rw [later, stop] at missed
  cases missed

/-- The range of a node with a child that does not fill it leads back to that node. -/
theorem Tree.WellFormed.covering_of_unfilled (wf : t.WellFormed) (filled : t.Filled)
    {c p : Node t} (held : p.span.isEmpty = false) (parent : c.parent? = some p)
    (smaller : c.span ≠ p.span) : (Node.root t).covering p.span = p := by
  obtain ⟨same, above, _, _⟩ := wf.covering_span held
  by_contra deeper
  obtain ⟨d, at_d, higher⟩ := Node.exists_child_toward above deeper
  have fills : d.span = p.span := by
    have inner := wf.covers_of_mem_lineage higher
    rw [same] at inner
    exact Span.covers_antisymm inner (wf.covers_of_mem_lineage (Node.parent_mem_lineage at_d))
  have alone := wf.beside_of_fills filled at_d fills
  rcases Node.beside_or_eq parent at_d with before | rfl | after
  · rw [alone] at before
    cases before
  · exact smaller fills
  · rw [alone] at after
    cases after

namespace Session

/-- Through first children and next siblings alone, and moving every time, the session comes
to select a range. -/
def Reaches (s : Session) (t : Tree) (lens : Lens) (language : String) (range : Span) : Prop :=
  ∃ motions : List Motion,
    (∀ motion ∈ motions, motion = .firstChild ∨ motion = .nextSibling) ∧
    .noMovement ∉ s.answers t lens language motions ∧
    (s.run t lens language motions).selection = some (range.start, range.stop)

variable {s : Session}

/-- One more move from a range that was reached. -/
theorem Reaches.step {n m : Node t} {motion : Motion} (selects : s.select = true)
    (reached : s.Reaches t lens language n.span) (held : n.span.isEmpty = false)
    (allowed : motion = .firstChild ∨ motion = .nextSibling)
    (found : lens.locate (Node.root t) n.span motion = some m) :
    s.Reaches t lens language m.span := by
  obtain ⟨motions, plain, moved, selected⟩ := reached
  have selects' : (s.run t lens language motions).select = true := by rw [select_run, selects]
  have goes : (s.run t lens language motions).target t lens motion = some m := by
    rw [target, current_of_selection held selected, found]
  refine ⟨motions ++ [motion], ?_, ?_, ?_⟩
  · intro other member
    rcases List.mem_append.mp member with earlier | last
    · exact plain other earlier
    · rw [List.mem_singleton.mp last]
      exact allowed
  · rw [answers_append, List.mem_append, not_or]
    refine ⟨moved, ?_⟩
    rw [answers, ask_of_select selects', goes, answers, List.mem_singleton]
    intro same
    cases same
  · rw [run_append, run, run, move_of_some selects' goes]

/-- Next siblings lead from one significant child to every later one. -/
theorem Reaches.along {b c p : Node t} {i j : Nat} (wf : t.WellFormed) (filled : t.Filled)
    (selects : s.select = true) (reached : s.Reaches t lens language b.span)
    (at_b : b.path = j :: p.path) (at_c : c.path = i :: p.path) (le : j ≤ i)
    (stop : lens.isSignificant c = true) : s.Reaches t lens language c.span := by
  rcases Nat.eq_or_lt_of_le le with rfl | less
  · rwa [Node.ext (at_c.trans at_b.symm)]
  · obtain ⟨m, k, at_m, after, upto, found⟩ := lens.exists_first_from at_c stop less
    have parent : b.parent? = some p := Node.parent?_eq_some_iff.mpr ⟨j, at_b⟩
    have held := filled.held_of_parent? parent
    have next : lens.locate (Node.root t) b.span .nextSibling = some m := by
      rw [wf.locate_eq_stepFrom filled lens held rfl, Lens.stepFrom,
        lens.sibling_of_parent? .forward parent, Node.beside_forward at_b, found, Option.some_or]
    have nearer := reached.step selects held (.inr rfl) next
    exact nearer.along wf filled selects at_m at_c upto stop
termination_by i - j

/-- From a node its significant children are reached. -/
theorem Reaches.child {c p : Node t} (wf : t.WellFormed) (filled : t.Filled)
    (selects : s.select = true) (reached : s.Reaches t lens language p.span)
    (held : p.span.isEmpty = false) (parent : c.parent? = some p)
    (stop : lens.isSignificant c = true) : s.Reaches t lens language c.span := by
  by_cases fills : c.span = p.span
  · rwa [fills]
  · obtain ⟨i, at_c⟩ := Node.parent?_eq_some_iff.mp parent
    obtain ⟨m, k, at_m, _, upto, found⟩ := lens.exists_first_from at_c stop (Nat.zero_le i)
    have first : lens.locate (Node.root t) p.span .firstChild = some m := by
      rw [Lens.locate, wf.covering_of_unfilled filled held parent fills]
      exact found
    have entered := reached.step selects held (.inl rfl) first
    exact entered.along wf filled selects at_m at_c upto stop

/-- From the range of the whole tree a session that goes by first children and next siblings,
and moves every time, comes to select any node that is significant with all nodes around it
below the root. -/
theorem significant_place_reached (wf : t.WellFormed)
    (held : ∀ n : Node t, n.span.isEmpty = false) (lens : Lens) (language : String) (n : Node t)
    (stops : ∀ a ∈ n.lineage, a.isRoot = false → lens.isSignificant a = true) (s : Session)
    (selects : s.select = true)
    (whole : s.selection = some ((Node.root t).span.start, (Node.root t).span.stop)) :
    ∃ motions : List Motion,
      (∀ motion ∈ motions, motion = .firstChild ∨ motion = .nextSibling) ∧
      .noMovement ∉ s.answers t lens language motions ∧
      (s.run t lens language motions).selection = some (n.span.start, n.span.stop) := by
  have filled : t.Filled := fun n _ => held n
  refine Node.lineage_induction (motive := fun n => (∀ a ∈ n.lineage, a.isRoot = false →
    lens.isSignificant a = true) → s.Reaches t lens language n.span) ?_ ?_ n.root_mem_lineage stops
  · intro _
    exact ⟨[], nofun, nofun, whole⟩
  · intro n p parent _ reached stops
    have above : ∀ a ∈ p.lineage, a.isRoot = false → lens.isSignificant a = true := by
      intro a higher
      exact stops a (Node.mem_lineage_trans higher (Node.parent_mem_lineage parent))
    have stop := stops n n.self_mem_lineage
      (Node.isRoot_eq_false_iff.mpr (Node.ne_root_of_parent? parent))
    exact (reached above).child wf filled selects (held p) parent stop

/-- The arguments of a call are reached past its name, below the call that fills its
statement. -/
theorem arguments_reached_in_block :
    Tree.callInBlock.WellFormed ∧ (∀ n : Node Tree.callInBlock, n.span.isEmpty = false) ∧
    (∀ a ∈ (⟨[1, 0, 1, 0], rfl⟩ : Node Tree.callInBlock).lineage, a.isRoot = false →
      Lens.isSignificant ⟨.full, { anonymousTrivial := true }⟩ a = true) ∧
    ∃ motions : List Motion,
      (∀ motion ∈ motions, motion = .firstChild ∨ motion = .nextSibling) ∧
      .noMovement ∉ ({ selection := some (0, 11), select := true } : Session).answers
        Tree.callInBlock ⟨.full, { anonymousTrivial := true }⟩ "" motions ∧
      (({ selection := some (0, 11), select := true } : Session).run Tree.callInBlock
        ⟨.full, { anonymousTrivial := true }⟩ "" motions).selection = some (5, 8) := by
  have wf : Tree.callInBlock.WellFormed := by decide
  have held : ∀ n : Node Tree.callInBlock, n.span.isEmpty = false := by decide
  have stops : ∀ a ∈ (⟨[1, 0, 1, 0], rfl⟩ : Node Tree.callInBlock).lineage, a.isRoot = false →
      Lens.isSignificant ⟨.full, { anonymousTrivial := true }⟩ a = true := by decide
  refine ⟨wf, held, stops, ?_⟩
  exact significant_place_reached wf held _ "" _ stops
    { selection := some (0, 11), select := true } rfl rfl

end Session

end TreeNav
