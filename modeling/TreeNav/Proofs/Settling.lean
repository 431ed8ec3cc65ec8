import TreeNav.Proofs.Run
import TreeNav.Proofs.Targets

/-!
Going back from sibling to sibling in a tree with empty nodes. An empty target is kept as
a caret, and a caret never finds an empty node. If a later sibling starts at the same place
the caret finds that sibling, whose previous sibling is the empty node again, and the motion
never ends; otherwise it finds the parent, and the motion goes on outwards.
-/
namespace TreeNav

/-- A missing token in front of a word. -/
def Tree.missingBeforeWord : Tree :=
  .node ⟨"file", true, ⟨0, 5⟩⟩ [
    .node ⟨"missing", true, ⟨0, 0⟩⟩ [],
    .node ⟨"word", true, ⟨0, 5⟩⟩ []]

/-- A missing token after a word, with a blank before the next word. -/
def Tree.missingAfterWord : Tree :=
  .node ⟨"file", true, ⟨0, 9⟩⟩ [
    .node ⟨"word", true, ⟨0, 5⟩⟩ [],
    .node ⟨"missing", true, ⟨5, 5⟩⟩ [],
    .node ⟨"word", true, ⟨6, 9⟩⟩ []]

variable {t : Tree}

namespace Node

/-- A caret at the empty node `z` finds the later sibling `v`. -/
def Shadows (v z : Node t) : Prop :=
  z.span.isEmpty = true ∧ v.span.isEmpty = false ∧ v.span.start = z.span.start ∧
    v ∈ z.beside .forward

instance (v z : Node t) : Decidable (v.Shadows z) :=
  inferInstanceAs (Decidable (_ ∧ _ ∧ _ ∧ _))

/-- The node found for a selection is `v` or starts with it inside it. -/
def Catches (v : Node t) (selection : Span) : Prop :=
  v ∈ ((root t).covering selection).lineage ∧
    ((root t).covering selection).span.start = v.span.start

end Node

namespace Tree.WellFormed

variable {lens : Lens} {v z : Node t}

theorem catches_span (wf : t.WellFormed) (held : v.span.isEmpty = false) : v.Catches v.span := by
  obtain ⟨same, above, _, _⟩ := wf.covering_span held
  exact ⟨above, congrArg Span.start same⟩

theorem catches_shadowed (wf : t.WellFormed) (shadow : v.Shadows z) : v.Catches z.span := by
  obtain ⟨empty, held, meets, _⟩ := shadow
  exact wf.covering_of_start empty held meets

/-- From the node that a caret finds in its place an empty node is the previous sibling. -/
theorem previousSibling_of_catches (wf : t.WellFormed) (shadow : v.Shadows z)
    (stop : lens.isSignificant z = true) {selection : Span} (caught : v.Catches selection) :
    ∃ m, lens.locate (Node.root t) selection .previousSibling = some m ∧ m.span = z.span := by
  obtain ⟨empty, _, meets, after⟩ := shadow
  obtain ⟨above, start⟩ := caught
  have before : z ∈ v.beside .backward := Node.mem_beside_opposite after
  have some_found : lens.sibling .backward ((Node.root t).covering selection) ≠ none := by
    intro lost
    have passed := (lens.sibling_eq_none_iff .backward _).mp lost v above z before
    rw [stop] at passed
    cases passed
  obtain ⟨m, found⟩ := Option.ne_none_iff_exists'.mp some_found
  refine ⟨m, found, ?_⟩
  -- Nothing lies between the empty node and the place where it stands.
  rcases lens.sibling_nearest .backward found above before stop with rfl | nearer
  · rfl
  · have left := wf.stop_le_start_of_before (a := z) (b := m) nearer
    have right := wf.sibling_backward_before found
    have width := wf.ordered m
    have width' := wf.ordered z
    rw [Span.isEmpty_iff] at empty
    exact Span.ext (by omega) (by omega)

/-- A caret at an empty node that nothing shadows finds the parent. -/
theorem covering_of_unshadowed (wf : t.WellFormed) {p : Node t} (parent : z.parent? = some p)
    (empty : z.span.isEmpty = true) (inside : p.span.contains z.span.start = true)
    (free : ∀ v : Node t, ¬ v.Shadows z) : (Node.root t).covering z.span = p := by
  have probed := wf.probe_of_contains empty inside
  have above : p ∈ ((Node.root t).covering z.span).lineage := by
    refine wf.mem_lineage_covering p.root_mem_lineage ?_
    rw [probed, Span.covers_byte, inside]
  by_contra deeper
  -- A child that contains the caret would shadow the empty node.
  obtain ⟨v, at_v, higher⟩ := Node.exists_child_toward above deeper
  have entered := (Node.descent_covering (Node.root t) z.span).entered v higher
    v.root_mem_lineage (Node.ne_root_of_parent? at_v)
  have held := Span.not_isEmpty_of_covers entered (Node.probe_held ..)
  rw [probed, Span.covers_byte, Span.contains_iff] at entered
  have width := wf.ordered z
  rcases Node.beside_or_eq at_v parent with before | rfl | after
  · have apart := wf.stop_le_start_of_beside_backward before
    omega
  · rw [empty] at held
    cases held
  · have apart := wf.stop_le_start_of_beside_forward after
    exact free v ⟨empty, held, by omega, after⟩

/-- One step back from a node that holds something: the node found for an unshadowed target
starts earlier, or starts no later and lies less deep. -/
theorem previousSibling_descends (wf : t.WellFormed) {x : Node t} (held : x.span.isEmpty = false)
    (found : lens.sibling .backward x = some z) (free : ∀ v : Node t, ¬ v.Shadows z) :
    Prod.Lex (· < ·) (· < ·)
      (((Node.root t).covering z.span).span.start, ((Node.root t).covering z.span).path.length)
      (x.span.start, x.path.length) := by
  have before := wf.sibling_backward_before found
  rw [Span.isEmpty_eq_false_iff] at held
  cases empty : z.span.isEmpty with
  | false =>
    obtain ⟨same, _, _, _⟩ := wf.covering_span empty
    rw [same]
    rw [Span.isEmpty_eq_false_iff] at empty
    exact Prod.Lex.left _ _ (by omega)
  | true =>
    obtain ⟨_, a, above, beside⟩ := lens.sibling_spec _ found
    obtain ⟨inner, siblings, _⟩ := Node.beside_spec beside
    obtain ⟨p, parent⟩ := Node.parent?_isSome inner
    have higher : p ∈ x.lineage := Node.mem_lineage_trans (Node.parent_mem_lineage parent) above
    have cover := (Span.covers_iff ..).mp (wf.covers_of_mem_lineage higher)
    have outer := (Span.covers_iff ..).mp
      (wf.covers_of_mem_lineage (Node.parent_mem_lineage (siblings.trans parent)))
    have inside : p.span.contains z.span.start = true := by
      have width := wf.ordered z
      rw [Span.contains_iff]
      omega
    rw [wf.covering_of_unshadowed (siblings.trans parent) empty inside free]
    have deeper : p.path.length < x.path.length := by
      obtain ⟨i, a_path⟩ := Node.parent?_eq_some_iff.mp parent
      have shorter := (Node.mem_lineage_iff.mp above).length_le
      rw [a_path, List.length_cons] at shorter
      omega
    rcases Nat.lt_or_eq_of_le cover.1 with less | same
    · exact Prod.Lex.left _ _ less
    · rw [same]
      exact Prod.Lex.right _ deeper

end Tree.WellFormed

namespace Session

variable {lens : Lens} {language : String} {s : Session}

/-- A run that is caught goes to the place of the empty node for good. -/
theorem target_of_catches (wf : t.WellFormed) (selects : s.select = true) {v z : Node t}
    (shadow : v.Shadows z) (stop : lens.isSignificant z = true) (caught : v.Catches s.current)
    (k : Nat) : ∃ m, (s.repeated t lens language .previousSibling k).target t lens
      .previousSibling = some m ∧ m.span = z.span := by
  refine wf.previousSibling_of_catches shadow stop ?_
  induction k with
  | zero => exact caught
  | succ k ih =>
    obtain ⟨m, found, same⟩ := wf.previousSibling_of_catches shadow stop ih
    rw [repeated, current_move wf (by rw [select_repeated, selects]) found, same]
    exact wf.catches_shadowed shadow

/-- A run goes on from a shadowed target to nodes at the same place for good. -/
theorem target_of_shadowed (wf : t.WellFormed) (selects : s.select = true) {v z : Node t}
    {j k : Nat} (le : j ≤ k) (found : (s.repeated t lens language .previousSibling j).target t lens
      .previousSibling = some z) (shadow : v.Shadows z) :
    ∃ m, (s.repeated t lens language .previousSibling k).target t lens
      .previousSibling = some m ∧ m.span = z.span := by
  rcases Nat.eq_or_lt_of_le le with rfl | less
  · exact ⟨z, found, rfl⟩
  · obtain ⟨i, rfl⟩ := Nat.exists_eq_add_of_lt less
    have stop := (lens.sibling_spec .backward found).1
    have selects' : (s.repeated t lens language .previousSibling j).select = true := by
      rw [select_repeated, selects]
    have caught : v.Catches (s.repeated t lens language .previousSibling (j + 1)).current := by
      rw [repeated, current_move wf selects' found]
      exact wf.catches_shadowed shadow
    rw [Nat.add_right_comm, ← repeated_add]
    exact target_of_catches wf (by rw [select_repeated, selects]) shadow stop caught i

/-- A run that meets no shadowed node comes to an end. -/
theorem exists_target_none_of_unshadowed (wf : t.WellFormed) {s : Session}
    (selects : s.select = true)
    (free : ∀ k z, (s.repeated t lens language .previousSibling k).target t lens
      .previousSibling = some z → ∀ v : Node t, ¬ v.Shadows z) :
    ∃ k, (s.repeated t lens language .previousSibling k).target t lens .previousSibling = none := by
  cases found : s.target t lens .previousSibling with
  | none => exact ⟨0, found⟩
  | some z =>
    have here : (s.move t lens language .previousSibling).current = z.span :=
      current_move wf selects found
    have rest : ∃ k, ((s.move t lens language .previousSibling).repeated t lens language
        .previousSibling k).target t lens .previousSibling = none := by
      refine exists_target_none_of_unshadowed wf (by rw [select_move, selects]) ?_
      intro k z later
      rw [repeated_move] at later
      exact free (k + 1) z later
    obtain ⟨k, ended⟩ := rest
    rw [repeated_move] at ended
    exact ⟨k + 1, ended⟩
termination_by (((Node.root t).covering s.current).span.start,
  ((Node.root t).covering s.current).path.length)
decreasing_by
  have unshadowed := free 0 z found
  have found : lens.sibling .backward ((Node.root t).covering s.current) = some z := found
  rw [here]
  refine wf.previousSibling_descends (Node.covering_held ?_) found unshadowed
  intro top
  rw [top, lens.sibling_root] at found
  cases found

/-- A session that repeats the move to the previous sibling settles if and only if it is never
led to a shadowed node; from such a node on it reports the same range for good. All sessions
over a tree settle if and only if no significant node is shadowed. -/
theorem previousSibling_settles_iff (wf : t.WellFormed) (lens : Lens) (language : String) :
    (∀ s : Session, s.select = true →
      ((∃ k, s.answer t lens language .previousSibling k = .noMovement) ↔
        ∀ k z, (s.repeated t lens language .previousSibling k).target t lens
          .previousSibling = some z → ∀ v : Node t, ¬ v.Shadows z)) ∧
    (∀ s : Session, s.select = true → ∀ j (z v : Node t),
      (s.repeated t lens language .previousSibling j).target t lens .previousSibling = some z →
      v.Shadows z → ∀ k, j ≤ k →
        (s.answer t lens language .previousSibling k).range? = some z.span) ∧
    ((∀ s : Session, s.select = true →
        ∃ k, s.answer t lens language .previousSibling k = .noMovement) ↔
      ∀ z v : Node t, lens.isSignificant z = true → ¬ v.Shadows z) := by
  have caught : ∀ s : Session, s.select = true → ∀ j (z v : Node t),
      (s.repeated t lens language .previousSibling j).target t lens .previousSibling = some z →
      v.Shadows z → ∀ k, j ≤ k →
        (s.answer t lens language .previousSibling k).range? = some z.span := by
    intro s selects j z v found shadow k le
    obtain ⟨m, again, same⟩ := target_of_shadowed wf selects le found shadow
    rw [answer_eq_selecting selects, again, ← same]
    rfl
  refine ⟨?_, caught, ?_, ?_⟩
  · intro s selects
    simp only [answer_eq_noMovement_iff selects]
    refine ⟨?_, exists_target_none_of_unshadowed wf selects⟩
    rintro ⟨k, ended⟩ j z found v shadow
    obtain ⟨m, later, _⟩ := target_of_shadowed wf selects (Nat.le_max_left j k) found shadow
    obtain ⟨n, moved⟩ := target_of_le (Nat.le_max_right j k) later
    rw [ended] at moved
    cases moved
  · intro settles z v stop shadow
    -- A host that has selected the shadowing node is caught from the start.
    let s : Session := { selection := some (v.span.start, v.span.stop), select := true }
    have here : s.current = v.span := current_of_selection shadow.2.1 rfl
    have caught : v.Catches s.current := by
      rw [here]
      exact wf.catches_span shadow.2.1
    obtain ⟨k, ended⟩ := settles s rfl
    obtain ⟨m, moved, _⟩ := target_of_catches wf rfl shadow stop caught k
    rw [(answer_eq_noMovement_iff rfl).mp ended] at moved
    cases moved
  · intro free s selects
    simp only [answer_eq_noMovement_iff selects]
    refine exists_target_none_of_unshadowed wf selects ?_
    intro k z found v
    exact free z v (lens.sibling_spec .backward found).1

/-- A missing token in front of a blank is left again. -/
theorem previousSibling_settles_at_blank :
    Tree.missingAfterWord.WellFormed ∧
    ({ caret := 7, select := true } : Session).answer Tree.missingAfterWord ⟨.full, {}⟩ ""
      .previousSibling 0 = .moved 5 (some ⟨5, 5⟩) "missing" ∧
    ∀ s : Session, s.select = true → ∃ k, s.answer Tree.missingAfterWord ⟨.full, {}⟩ ""
      .previousSibling k = .noMovement := by
  have wf : Tree.missingAfterWord.WellFormed := by decide
  have free : ∀ z v : Node Tree.missingAfterWord,
      Lens.isSignificant ⟨.full, {}⟩ z = true → ¬ v.Shadows z := by decide
  exact ⟨wf, by decide, (previousSibling_settles_iff wf ⟨.full, {}⟩ "").2.2.mpr free⟩

/-- In front of a word the missing token is reported without end. -/
theorem previousSibling_stays_before_word :
    Tree.missingBeforeWord.WellFormed ∧
    ∀ k, ({ caret := 0, select := true } : Session).answer Tree.missingBeforeWord ⟨.full, {}⟩ ""
      .previousSibling k = .moved 0 (some ⟨0, 0⟩) "missing" := by
  refine ⟨by decide, fun k => ?_⟩
  have fixed : ∀ k, ({ caret := 0, select := true } : Session).repeated Tree.missingBeforeWord
      ⟨.full, {}⟩ "" .previousSibling (k + 1) = ⟨0, some (0, 0), true⟩ := by
    intro k
    induction k with
    | zero => decide
    | succ k ih =>
      rw [repeated, ih]
      decide
  cases k with
  | zero => decide
  | succ k =>
    rw [answer, fixed]
    decide

end Session

end TreeNav
