import TreeNav.Proofs.Largest

/-!
Growing a selection step by step. One step leads to the innermost node strictly around the
selection, whether or not the selection is the range of a node, and however many nodes share that
range. So the steps climb through the ranges around the selection one by one, and shrinking the
selection after a step finds a node no shorter than the one from which the step was made.
-/
namespace TreeNav

/-- The selection lies in the range and does not fill it. -/
def Span.encloses (range selection : Span) : Bool := range.covers selection && range != selection

theorem Span.encloses_iff {range selection : Span} : range.encloses selection = true ↔
    range.covers selection = true ∧ range ≠ selection := by
  simp [encloses]

namespace Tree

/-- The nodes strictly around a selection. They stand in reverse pre-order, a node before all
nodes above it. -/
def around (t : Tree) (selection : Span) : List (Node t) :=
  t.nodes.reverse.filter fun m => m.span.encloses selection

/-- The nodes strictly around a selection from the deepest outwards, of each range only the
innermost, and without the root. -/
def enclosing (t : Tree) (selection : Span) : List (Node t) :=
  ((t.around selection).eraseDupsBy fun a b => a.span == b.span).filter fun m => !m.isRoot

/-- Growing the selection, each time from the range of the node just found, leads to these nodes
and then no further. -/
def GrowsThrough (t : Tree) (selection : Span) : List (Node t) → Prop
  | [] => (Node.root t).expand selection = none
  | m :: rest => (Node.root t).expand selection = some m ∧ t.GrowsThrough m.span rest

end Tree

variable {t : Tree} {selection : Span}

namespace Node

/-- The result is the innermost node strictly around the selection; there is none only where no
node below the root is strictly around it. -/
def IsInnermost (selection : Span) : Option (Node t) → Prop
  | none => ∀ q : Node t, q.span.encloses selection = true → q = root t
  | some m => m ≠ root t ∧ m.span.encloses selection = true ∧
      ∀ q : Node t, q.span.encloses selection = true → q ∈ m.lineage

/-- A node at or below all that are strictly around the selection is the innermost, unless it is
the root. -/
theorem isInnermost_filter {m : Node t} (strict : m ≠ root t → m.span.encloses selection = true)
    (lowest : ∀ q : Node t, q.span.encloses selection = true → q ∈ m.lineage) :
    IsInnermost selection ((some m).filter fun m => !m.isRoot) := by
  by_cases top : m = root t
  · subst top
    intro q strictly
    simpa using lowest q strictly
  · have kept : (some m).filter (fun m => !m.isRoot) = some m := by
      simp [isRoot_eq_false_iff.mpr top]
    rw [kept]
    exact ⟨top, strict top, lowest⟩

end Node

namespace Tree

theorem mem_around_iff {q : Node t} :
    q ∈ t.around selection ↔ q.span.encloses selection = true := by
  simp [around, mem_nodes]

theorem growsThrough_of_none (ended : (Node.root t).expand selection = none)
    (steps : List (Node t)) : t.GrowsThrough selection steps ↔ steps = [] := by
  cases steps with
  | nil => simp [GrowsThrough, ended]
  | cons s rest => simp [GrowsThrough, ended]

theorem growsThrough_of_some {m : Node t} {onward : List (Node t)}
    (found : (Node.root t).expand selection = some m)
    (further : ∀ rest, t.GrowsThrough m.span rest ↔ rest = onward) (steps : List (Node t)) :
    t.GrowsThrough selection steps ↔ steps = m :: onward := by
  cases steps with
  | nil => simp [GrowsThrough, found]
  | cons s rest =>
    rw [GrowsThrough, found, Option.some.injEq, List.cons.injEq, eq_comm]
    refine and_congr_right fun same => ?_
    rw [same]
    exact further rest

end Tree

namespace Tree.WellFormed

/-- One step: growing a selection leads to the innermost node strictly around it. -/
theorem expand_isInnermost (wf : t.WellFormed) (held : selection.isEmpty = false) :
    Node.IsInnermost selection ((Node.root t).expand selection) := by
  have lowest : ∀ q : Node t, q.span.encloses selection = true →
      q ∈ ((Node.root t).covering selection).lineage := by
    intro q strictly
    apply wf.mem_lineage_covering_of_held held q.root_mem_lineage
    exact (Span.encloses_iff.mp strictly).1
  unfold Node.expand
  simp only [held, Bool.false_eq_true, if_false]
  split
  · rename_i fills
    -- Nodes of the selection's own range are passed over on the way up.
    have higher : ∀ q : Node t, q.span.encloses selection = true →
        q ∈ ((Node.root t).covering selection).ancestors := by
      intro q strictly
      refine Node.mem_ancestors_iff.mpr ⟨lowest q strictly, ?_⟩
      intro same
      rw [same] at strictly
      exact (Span.encloses_iff.mp strictly).2 fills
    cases found : ((Node.root t).covering selection).ancestors.find?
        fun a => a.span != selection with
    | none =>
      intro q strictly
      have passed := List.find?_eq_none.mp found q (higher q strictly)
      rw [bne_iff_ne] at passed
      exact absurd (Span.encloses_iff.mp strictly).2 passed
    | some m =>
      apply Node.isInnermost_filter
      · intro _
        have above := (Node.mem_ancestors_iff.mp (List.mem_of_find?_eq_some found)).1
        have cover := wf.covers_of_mem_lineage above
        have other := List.find?_some found
        rw [bne_iff_ne] at other
        rw [fills] at cover
        exact Span.encloses_iff.mpr ⟨cover, other⟩
      · intro q strictly
        have other := bne_iff_ne.mpr (Span.encloses_iff.mp strictly).2
        rcases rel_of_find?_of_pairwise (Node.pairwise_ancestors _) found (higher q strictly) other
          with same | further
        · rw [same]
          exact m.self_mem_lineage
        · exact (Node.mem_ancestors_iff.mp further).1
  · rename_i unfilled
    apply Node.isInnermost_filter _ lowest
    intro moved
    exact Span.encloses_iff.mpr ⟨Node.covers_of_covering_ne_root held moved, unfilled⟩

/-- Of the nodes strictly around a selection each lies above the one before. -/
theorem pairwise_around (wf : t.WellFormed) (held : selection.isEmpty = false) :
    (t.around selection).Pairwise fun a b => b ∈ a.ancestors := by
  have order := (List.pairwise_reverse.mpr (Node.pairwise_nodes t)).filter
    fun m => m.span.encloses selection
  refine order.imp_of_mem ?_
  intro a b member member' later
  have cover := (Span.encloses_iff.mp (mem_around_iff.mp member)).1
  have cover' := (Span.encloses_iff.mp (mem_around_iff.mp member')).1
  refine Node.mem_ancestors_iff.mpr ⟨?_, later.2⟩
  rcases wf.lineage_of_common held cover cover' with below | above
  · exact absurd (later.1.antisymm (.inl below)) later.2
  · exact above

/-- What is strictly around the range of the innermost node is strictly around the selection and
has another range. -/
theorem around_span (wf : t.WellFormed) {m : Node t} (cover : m.span.encloses selection = true)
    (lowest : ∀ q : Node t, q.span.encloses selection = true → q ∈ m.lineage) :
    t.around m.span = (t.around selection).filter fun q => (q.span == m.span) = false := by
  obtain ⟨inside, partly⟩ := Span.encloses_iff.mp cover
  rw [around, around, List.filter_filter]
  apply List.filter_congr
  intro q _
  rw [Bool.eq_iff_iff, Bool.and_eq_true, decide_eq_true_eq, beq_eq_false_iff_ne, Span.encloses_iff]
  constructor
  · rintro ⟨outer, different⟩
    refine ⟨different, Span.encloses_iff.mpr ⟨Span.covers_trans outer inside, ?_⟩⟩
    -- A node of the selection's own range cannot hold `m`, which holds more than the selection.
    intro same
    rw [same] at outer
    exact partly (Span.covers_antisymm inside outer)
  · rintro ⟨different, strictly⟩
    exact ⟨wf.covers_of_mem_lineage (lowest q strictly), different⟩

theorem enclosing_of_none (wf : t.WellFormed) (held : selection.isEmpty = false)
    (ended : (Node.root t).expand selection = none) : t.enclosing selection = [] := by
  have top := wf.expand_isInnermost held
  rw [ended] at top
  have order := wf.pairwise_around held
  have alone : ∀ q ∈ t.around selection, q = Node.root t :=
    fun q member => top q (mem_around_iff.mp member)
  unfold enclosing
  cases listed : t.around selection with
  | nil => rfl
  | cons a rest =>
    rw [listed] at order alone
    obtain rfl := alone a List.mem_cons_self
    have top_only : rest = [] := by
      rw [List.eq_nil_iff_forall_not_mem]
      intro b member
      have above := List.rel_of_pairwise_cons order member
      rw [Node.ancestors_root] at above
      cases above
    subst top_only
    rfl

/-- One step takes the first of the enclosing nodes; the others are those that enclose its
range. -/
theorem enclosing_of_some (wf : t.WellFormed) (held : selection.isEmpty = false) {m : Node t}
    (found : (Node.root t).expand selection = some m) :
    t.enclosing selection = m :: t.enclosing m.span := by
  obtain ⟨inner, cover, lowest⟩ : Node.IsInnermost selection (some m) :=
    found ▸ wf.expand_isInnermost held
  have order := wf.pairwise_around held
  have left := wf.around_span cover lowest
  unfold enclosing
  rw [left]
  cases listed : t.around selection with
  | nil =>
    have member := mem_around_iff.mpr cover
    rw [listed] at member
    cases member
  | cons a rest =>
    -- What stands before the innermost node would lie below it.
    have first : a = m := by
      have member := mem_around_iff.mpr cover
      rw [listed] at member order
      rcases List.mem_cons.mp member with same | later
      · exact same.symm
      · have above := (Node.mem_ancestors_iff.mp (List.rel_of_pairwise_cons order later)).1
        have below := lowest a (mem_around_iff.mp (listed ▸ List.mem_cons_self))
        exact Node.mem_lineage_antisymm below above
    subst first
    simp [List.eraseDupsBy_cons, Node.isRoot_eq_false_iff.mpr inner]

/-- A run: the nodes through which a selection grows are the enclosing ones. -/
theorem growsThrough_iff (wf : t.WellFormed) (held : selection.isEmpty = false)
    (steps : List (Node t)) : t.GrowsThrough selection steps ↔ steps = t.enclosing selection := by
  -- Each step uses up the first of the enclosing nodes, so the induction is on their list.
  generalize left : t.enclosing selection = listed
  induction listed generalizing selection steps with
  | nil =>
    cases found : (Node.root t).expand selection with
    | none => exact growsThrough_of_none found steps
    | some m =>
      rw [wf.enclosing_of_some held found] at left
      cases left
  | cons m onward ih =>
    cases found : (Node.root t).expand selection with
    | none =>
      rw [wf.enclosing_of_none held found] at left
      cases left
    | some e =>
      rw [wf.enclosing_of_some held found, List.cons.injEq] at left
      obtain ⟨rfl, rest_eq⟩ := left
      obtain ⟨_, cover, _⟩ : Node.IsInnermost selection (some e) :=
        found ▸ wf.expand_isInnermost held
      have held' : e.span.isEmpty = false :=
        Span.not_isEmpty_of_covers (Span.encloses_iff.mp cover).1 held
      exact growsThrough_of_some found (fun rest => ih held' rest rest_eq) steps

end Tree.WellFormed

/-- A selection that holds something grows through the nodes strictly around it, from the deepest
outwards, one for each range and never to the root. A caret grows to the node at the caret and
then through the nodes strictly around that one, or nowhere if that is the root. -/
theorem Tree.growsThrough_enclosing_ranges (wf : t.WellFormed) (selection : Span)
    (steps : List (Node t)) :
    (selection.isEmpty = false →
      (t.GrowsThrough selection steps ↔ steps = t.enclosing selection) ∧
      (t.around selection).Pairwise fun a b => b ∈ a.ancestors) ∧
    (selection.isEmpty = true → ∀ m : Node t, (Node.root t).atOffset selection.start = m →
      (t.GrowsThrough selection steps ↔
        steps = if m.isRoot then [] else m :: t.enclosing m.span)) := by
  constructor
  · intro held
    exact ⟨wf.growsThrough_iff held steps, wf.pairwise_around held⟩
  · rintro empty m rfl
    have first : (Node.root t).expand selection =
        (some ((Node.root t).atOffset selection.start)).filter fun m => !m.isRoot := by
      simp [Node.expand, empty]
    by_cases top : (Node.root t).atOffset selection.start = Node.root t
    · rw [top] at first ⊢
      exact growsThrough_of_none first steps
    · have inner := Node.isRoot_eq_false_iff.mpr top
      rw [inner, if_neg Bool.false_ne_true]
      apply growsThrough_of_some
      · simp [first, inner]
      · apply wf.growsThrough_iff
        rw [← Node.covering_caret] at top ⊢
        exact Node.covering_held top

/-- The name of a call grows to the call, which shares its range with the statement around it, and
then to the block. -/
theorem Tree.name_grows_through_block :
    callInBlock.WellFormed ∧ (⟨2, 5⟩ : Span).isEmpty = false ∧
    callInBlock.GrowsThrough ⟨2, 5⟩ [⟨[0, 1, 0], rfl⟩, ⟨[0], rfl⟩] ∧
    callInBlock.enclosing ⟨2, 5⟩ = [⟨[0, 1, 0], rfl⟩, ⟨[0], rfl⟩] := by
  have wf : callInBlock.WellFormed := by decide
  have held : (⟨2, 5⟩ : Span).isEmpty = false := by decide
  have listed : callInBlock.enclosing ⟨2, 5⟩ = [⟨[0, 1, 0], rfl⟩, ⟨[0], rfl⟩] := by decide
  exact ⟨wf, held, ((growsThrough_enclosing_ranges wf ⟨2, 5⟩ _).1 held).1.mpr listed.symm, listed⟩

/-- Where the range of a significant node grows to another node, the range of that one shrinks to
a node strictly inside that is no shorter than the first, and that has its very range unless some
significant node of another range strictly inside is no shorter either. -/
theorem Lens.shrink_answers_expand (wf : t.WellFormed) (lens : Lens) {n e : Node t}
    (stop : lens.isSignificant n = true) (held : n.span.isEmpty = false)
    (grown : (Node.root t).expand n.span = some e) :
    ∃ s : Node t, lens.shrink (Node.root t) e.span = some s ∧ s.span.isEmpty = false ∧
      e.span.encloses s.span = true ∧ n.span.length ≤ s.span.length ∧
      ((∀ q : Node t, lens.isSignificant q = true → e.span.encloses q.span = true →
        n.span.length ≤ q.span.length → q.span = n.span) → s.span = n.span) := by
  obtain ⟨_, cover, _⟩ : Node.IsInnermost n.span (some e) := grown ▸ wf.expand_isInnermost held
  obtain ⟨covered, partly⟩ := Span.encloses_iff.mp cover
  have inside : n.Inside e.span := ⟨covered, partly.symm, held⟩
  have inner : n ≠ Node.root t := by
    intro top
    have outer := wf.covers_of_mem_lineage e.root_mem_lineage
    rw [← top] at outer
    exact partly (Span.covers_antisymm covered outer)
  have fits : (lens.fits e.span n && !n.isHidden e.span) = true := by
    simp [Lens.fits_iff.mpr ⟨inner, inside, stop⟩, wf.isHidden_of_span inside rfl]
  have largest := wf.shrink_isLargest lens (Span.not_isEmpty_of_covers covered held)
  cases found : lens.shrink (Node.root t) e.span with
  | none =>
    rw [found] at largest
    exact absurd fits (largest n)
  | some s =>
    rw [found] at largest
    obtain ⟨chosen, outranks⟩ := largest
    obtain ⟨_, within, stop'⟩ := Lens.fits_iff.mp (Bool.and_eq_true_iff.mp chosen).1
    have strictly := Span.encloses_iff.mpr ⟨within.covered, within.partly.symm⟩
    have longer := (outranks n fits).1
    exact ⟨s, rfl, within.held, strictly, longer, fun only => only s stop' strictly longer⟩

/-- The call grows to the block around it, and the range of the block shrinks back to the range of
the call. -/
theorem Lens.block_shrinks_to_call :
    Tree.callInBlock.WellFormed ∧
    (Lens.mk .full {}).isSignificant (⟨[0, 1, 0], rfl⟩ : Node Tree.callInBlock) = true ∧
    (⟨[0, 1, 0], rfl⟩ : Node Tree.callInBlock).span.isEmpty = false ∧
    (Node.root Tree.callInBlock).expand ⟨2, 8⟩ = some ⟨[0], rfl⟩ ∧
    ∃ s : Node Tree.callInBlock, (Lens.mk .full {}).shrink (Node.root Tree.callInBlock) ⟨0, 10⟩ =
      some s ∧ s.span = ⟨2, 8⟩ := by
  have wf : Tree.callInBlock.WellFormed := by decide
  have stop : (Lens.mk .full {}).isSignificant (⟨[0, 1, 0], rfl⟩ : Node Tree.callInBlock) =
      true := by decide
  have grown : (Node.root Tree.callInBlock).expand ⟨2, 8⟩ = some ⟨[0], rfl⟩ := by decide
  obtain ⟨s, found, _, _, _, back⟩ :=
    shrink_answers_expand wf ⟨.full, {}⟩ stop (by decide) grown
  exact ⟨wf, stop, by decide, grown, s, found, back (by decide)⟩

end TreeNav
