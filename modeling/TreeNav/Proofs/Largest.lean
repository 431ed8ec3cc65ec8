import TreeNav.Proofs.Descent
import TreeNav.Proofs.Preorder
import TreeNav.Proofs.Targets

/-!
The largest node inside a selection. Shrinking looks below the node that covers the selection
and leaves out every subtree that sticks out of it, with all that lies inside the selection
further down. So it finds the first of the longest significant nodes strictly inside, of those
that are not hidden below a node which the selection cuts; where the selection cuts no node, it
finds the first of the longest of all.
-/
namespace TreeNav

namespace Node

variable {t : Tree} {selection : Span} {qualifies : Label → Bool}

/-- A search that starts with a best hit keeps it unless some node in question is strictly
longer, and then ends with the first of the longest of these. -/
def IsBest (best : Option Hit) (candidate : Node t → Prop) (result : Option Hit) : Prop :=
  (result = best ∧ ∀ q, candidate q → Tree.beats q.span best = false) ∨
    ∃ m : Node t, result = some ⟨m.path, m.span⟩ ∧ candidate m ∧ Tree.beats m.span best = true ∧
      ∀ q, candidate q → m.Outranks q

theorem isBest_of_none {best : Option Hit} {candidate : Node t → Prop}
    (none : ∀ q, ¬ candidate q) : IsBest best candidate best :=
  .inl ⟨rfl, fun q sought => absurd sought (none q)⟩

/-- Two searches one after the other, the first among nodes that all come earlier. -/
theorem IsBest.append {best middle result : Option Hit} {first second : Node t → Prop}
    (one : IsBest best first middle) (two : IsBest middle second result)
    (order : ∀ a b, first a → second b → a.Leads b) :
    IsBest best (fun q => first q ∨ second q) result := by
  rcases one with ⟨rfl, kept⟩ | ⟨m, rfl, sought, beats, outranks⟩
  · rcases two with ⟨rfl, kept'⟩ | ⟨n, rfl, sought', beats', outranks'⟩
    · exact .inl ⟨rfl, fun q either => either.elim (kept q) (kept' q)⟩
    · refine .inr ⟨n, rfl, .inr sought', beats', ?_⟩
      rintro q (early | late)
      · have shorter := kept q early
        cases middle with
        | none => cases shorter
        | some hit =>
          simp only [Tree.beats, decide_eq_true_eq, decide_eq_false_iff_not] at beats' shorter
          exact ⟨by omega, by omega⟩
      · exact outranks' q late
  · rcases two with ⟨rfl, kept'⟩ | ⟨n, rfl, sought', beats', outranks'⟩
    · refine .inr ⟨m, rfl, .inl sought, beats, ?_⟩
      rintro q (early | late)
      · exact outranks q early
      · have shorter := kept' q late
        simp only [Tree.beats, decide_eq_false_iff_not] at shorter
        exact ⟨by omega, fun _ => order m q sought late⟩
    · simp only [Tree.beats, decide_eq_true_eq] at beats'
      refine .inr ⟨n, rfl, .inr sought', ?_, ?_⟩
      · cases best with
        | none => rfl
        | some hit =>
          simp only [Tree.beats, decide_eq_true_eq] at beats ⊢
          omega
      · rintro q (early | late)
        · have upto := (outranks q early).1
          exact ⟨by omega, by omega⟩
        · exact outranks' q late

/-- No node between `n` and `m` sticks out of the selection. -/
def Open (selection : Span) (n m : Node t) : Prop :=
  ∀ a ∈ m.ancestors, n ∈ a.ancestors → selection.covers a.span = true

theorem open_of_parent? {n c : Node t} (parent : c.parent? = some n) : Open selection n c := by
  intro a above below
  rw [ancestors_of_parent? parent] at above
  obtain ⟨higher, different⟩ := mem_ancestors_iff.mp below
  exact absurd (mem_lineage_antisymm higher above) different

/-- The way down from a node is open if its first step and the rest of it are. -/
theorem open_iff_of_child {n c m : Node t} (parent : c.parent? = some n) (under : c ∈ m.ancestors) :
    Open selection n m ↔ selection.covers c.span = true ∧ Open selection c m := by
  constructor
  · intro whole
    refine ⟨whole c under (mem_ancestors_of_parent? parent), fun a above below => ?_⟩
    exact whole a above (ancestors_of_child parent below)
  · rintro ⟨first, rest⟩ a above below
    have under' := (mem_ancestors_iff.mp under).1
    rcases mem_lineage_total (mem_ancestors_iff.mp above).1 under' with higher | lower
    · rw [lineage_of_parent? parent, List.mem_cons] at higher
      rcases higher with rfl | higher
      · exact first
      · obtain ⟨lower, different⟩ := mem_ancestors_iff.mp below
        exact absurd (mem_lineage_antisymm lower higher) different
    · by_cases same : c = a
      · exact same ▸ first
      · exact rest a above (mem_ancestors_iff.mpr ⟨lower, same⟩)

/-- The node lies strictly inside the selection, holds something and qualifies. -/
def Sought (selection : Span) (qualifies : Label → Bool) (m : Node t) : Prop :=
  m.Inside selection ∧ qualifies m.label = true

/-- What the search makes of a single node inside the selection. -/
theorem isBest_self {c : Node t} {best : Option Hit} (cover : selection.covers c.span = true) :
    IsBest best (fun q => q = c ∧ c.Sought selection qualifies)
      (if c.span != selection && !c.span.isEmpty && qualifies c.label && Tree.beats c.span best then
        some ⟨c.path, c.span⟩ else best) := by
  split
  · rename_i better
    simp only [Bool.and_eq_true, bne_iff_ne, Bool.not_eq_true'] at better
    obtain ⟨⟨⟨partly, held⟩, qualified⟩, beats⟩ := better
    refine .inr ⟨c, rfl, ⟨rfl, ⟨cover, partly, held⟩, qualified⟩, beats, ?_⟩
    rintro q ⟨rfl, _⟩
    exact ⟨Nat.le_refl _, fun _ => .inl q.self_mem_lineage⟩
  · rename_i worse
    refine .inl ⟨rfl, ?_⟩
    rintro q ⟨rfl, inside, qualified⟩
    simpa [inside.partly, inside.held, qualified] using worse

/-- The nodes in question in the children from an index on: the first child itself, those below
it, and those in the other children. -/
theorem sought_from_iff {n c q : Node t} {i : Nat} (at_c : c.path = i :: n.path) :
    (n.From i q ∧ Open selection n q ∧ q.Sought selection qualifies) ↔
      ((q = c ∧ c.Sought selection qualifies) ∨
        (selection.covers c.span = true ∧ c ∈ q.ancestors ∧ Open selection c q ∧
          q.Sought selection qualifies)) ∨
      (n.From (i + 1) q ∧ Open selection n q ∧ q.Sought selection qualifies) := by
  have parent : c.parent? = some n := parent?_eq_some_iff.mpr ⟨i, at_c⟩
  rw [from_iff at_c]
  constructor
  · rintro ⟨in_c | further, way, sought⟩
    · by_cases same : q = c
      · exact .inl (.inl ⟨same, same ▸ sought⟩)
      · have under := mem_ancestors_iff.mpr ⟨in_c, Ne.symm same⟩
        obtain ⟨first, rest⟩ := (open_iff_of_child parent under).mp way
        exact .inl (.inr ⟨first, under, rest, sought⟩)
    · exact .inr ⟨further, way, sought⟩
  · rintro ((⟨rfl, sought⟩ | ⟨first, under, rest, sought⟩) | ⟨further, way, sought⟩)
    · exact ⟨.inl q.self_mem_lineage, open_of_parent? parent, sought⟩
    · exact ⟨.inl (mem_ancestors_iff.mp under).1,
        (open_iff_of_child parent under).mpr ⟨first, rest⟩, sought⟩
    · exact ⟨.inr further, way, sought⟩

theorem largestAmong_isBest {n : Node t} {i : Nat} {rest : List Tree} {best : Option Hit}
    (left : n.subtree.children.drop i = rest)
    (deeper : ∀ c : Node t, c.parent? = some n → ∀ best : Option Hit,
      IsBest best (fun q => c ∈ q.ancestors ∧ Open selection c q ∧ q.Sought selection qualifies)
        (c.subtree.largestWithin selection qualifies c.path best)) :
    IsBest best (fun q => n.From i q ∧ Open selection n q ∧ q.Sought selection qualifies)
      (Tree.largestAmong selection qualifies n.path i best rest) := by
  induction rest generalizing i best with
  | nil => exact isBest_of_none fun q sought => not_from_of_drop left sought.1
  | cons s others ih =>
    obtain ⟨c, at_c, same, tail⟩ := exists_child_of_drop left
    have parent : c.parent? = some n := parent?_eq_some_iff.mpr ⟨i, at_c⟩
    have label_c : s.label = c.label := by rw [label, same]
    have span_c : s.span = c.span := by rw [Tree.span, label_c]; rfl
    simp only [sought_from_iff at_c]
    rw [Tree.largestAmong, label_c, span_c, ← at_c, ← same]
    split
    · rename_i cover
      simp only [cover, true_and]
      refine ((isBest_self cover).append (deeper c parent _) ?_).append (ih tail) ?_
      · rintro a b ⟨rfl, _⟩ ⟨under, _⟩
        exact .inl (mem_ancestors_iff.mp under).1
      · rintro a b (⟨rfl, _⟩ | ⟨under, _⟩) ⟨further, _⟩
        · exact .inr (before_of_from at_c a.self_mem_lineage further)
        · exact .inr (before_of_from at_c (mem_ancestors_iff.mp under).1 further)
    · -- The child sticks out, so neither it nor anything below it is in question.
      rename_i out
      have hidden : ∀ q : Node t, ¬ ((q = c ∧ c.Sought selection qualifies) ∨
          (selection.covers c.span = true ∧ c ∈ q.ancestors ∧ Open selection c q ∧
            q.Sought selection qualifies)) := by
        rintro q (⟨_, sought⟩ | ⟨cover, _⟩)
        · exact out sought.1.covered
        · exact out cover
      simpa only [hidden, false_or] using ih tail

theorem largestWithin_isBest (n : Node t) (best : Option Hit) :
    IsBest best (fun q => n ∈ q.ancestors ∧ Open selection n q ∧ q.Sought selection qualifies)
      (n.subtree.largestWithin selection qualifies n.path best) := by
  simp only [← from_zero_iff, Tree.largestWithin_eq]
  refine largestAmong_isBest rfl fun c parent best => ?_
  simpa only [from_zero_iff] using largestWithin_isBest c best
termination_by sizeOf n.subtree
decreasing_by exact sizeOf_subtree_lt parent

end Node

/-- The selection neither lies inside the range nor holds all of it. -/
def Span.cuts (selection range : Span) : Bool :=
  !range.covers selection && !selection.covers range

/-- Some node around this one, other than the root, is cut by the selection. -/
def Node.isHidden {t : Tree} (selection : Span) (m : Node t) : Bool :=
  m.ancestors.any fun a => !a.isRoot && selection.cuts a.span

/-- The node is one to shrink a selection to: significant, below the root, not empty, and
inside the selection without filling it. -/
def Lens.fits {t : Tree} (lens : Lens) (selection : Span) (m : Node t) : Bool :=
  !m.isRoot && lens.isSignificant m && !m.span.isEmpty && selection.covers m.span &&
    m.span != selection

section Shrinking

variable {t : Tree} {lens : Lens} {selection : Span}

theorem Span.cuts_eq_false_iff {range : Span} : selection.cuts range = false ↔
    range.covers selection = true ∨ selection.covers range = true := by
  rw [cuts]
  cases range.covers selection <;> simp

theorem Node.isHidden_eq_false_iff {m : Node t} : m.isHidden selection = false ↔
    ∀ a ∈ m.ancestors, a ≠ root t → selection.cuts a.span = false := by
  simp [isHidden, isRoot_eq_false_iff]

theorem Lens.fits_iff {m : Node t} : lens.fits selection m = true ↔
    m ≠ Node.root t ∧ m.Sought selection (lens.classifier.isSignificant lens.view) := by
  simp only [fits, Bool.and_eq_true, Bool.not_eq_true', bne_iff_ne, Node.isRoot_eq_false_iff]
  constructor
  · rintro ⟨⟨⟨⟨inner, stop⟩, held⟩, cover⟩, partly⟩
    exact ⟨inner, ⟨cover, partly, held⟩, stop⟩
  · rintro ⟨inner, inside, stop⟩
    exact ⟨⟨⟨⟨inner, stop⟩, inside.held⟩, inside.covered⟩, inside.partly⟩

/-- Where a descent for a selection ends, unless at the root, the selection is covered. -/
theorem Node.covers_of_covering_ne_root (held : selection.isEmpty = false)
    (moved : (root t).covering selection ≠ root t) :
    ((root t).covering selection).span.covers selection = true := by
  have entered := covers_of_covering_ne moved
  rwa [probe_of_held _ held] at entered

namespace Tree.WellFormed

/-- What fits lies below the covering node. -/
theorem covering_mem_ancestors (wf : t.WellFormed) (held : selection.isEmpty = false) {q : Node t}
    (inner : q ≠ Node.root t) (inside : q.Inside selection) :
    (Node.root t).covering selection ∈ q.ancestors := by
  by_cases stayed : (Node.root t).covering selection = Node.root t
  · rw [stayed]
    exact Node.mem_ancestors_iff.mpr ⟨q.root_mem_lineage, inner.symm⟩
  · have cover := Node.covers_of_covering_ne_root held stayed
    -- A node around the selection and inside it would fill it.
    have apart : q.span.covers selection = false := by
      rw [← Bool.not_eq_true]
      exact fun fills => inside.partly (Span.covers_antisymm fills inside.covered)
    have below : (Node.root t).covering selection ∈ q.lineage := by
      rcases wf.lineage_of_common inside.held (Span.covers_trans cover inside.covered)
        (Span.covers_refl q.span) with above | under
      · exact above
      · have fills := Span.covers_trans (wf.covers_of_mem_lineage under) cover
        rw [apart] at fills
        cases fills
    refine Node.mem_ancestors_iff.mpr ⟨below, ?_⟩
    intro same
    rw [same, apart] at cover
    cases cover

/-- The way down from the covering node is open to what is not hidden, and to nothing else. -/
theorem open_covering_iff (wf : t.WellFormed) (held : selection.isEmpty = false) {q : Node t}
    (under : (Node.root t).covering selection ∈ q.ancestors) :
    Node.Open selection ((Node.root t).covering selection) q ↔ q.isHidden selection = false := by
  rw [Node.isHidden_eq_false_iff]
  constructor
  · intro way a above inner
    rw [Span.cuts_eq_false_iff]
    by_cases lower : (Node.root t).covering selection ∈ a.ancestors
    · exact .inr (way a above lower)
    · have higher : a ∈ ((Node.root t).covering selection).lineage := by
        rcases Node.mem_lineage_total (Node.mem_ancestors_iff.mp above).1
          (Node.mem_ancestors_iff.mp under).1 with higher | deeper
        · exact higher
        · by_cases same : (Node.root t).covering selection = a
          · exact same ▸ a.self_mem_lineage
          · exact absurd (Node.mem_ancestors_iff.mpr ⟨deeper, same⟩) lower
      have moved : (Node.root t).covering selection ≠ Node.root t := by
        intro stayed
        rw [stayed, Node.lineage_root, List.mem_singleton] at higher
        exact inner higher
      have cover := Node.covers_of_covering_ne_root held moved
      exact .inl (Span.covers_trans (wf.covers_of_mem_lineage higher) cover)
  · intro shown a above lower
    have inner := Node.ne_root_of_mem_ancestors lower
    rcases Span.cuts_eq_false_iff.mp (shown a above inner) with cover | covered
    · -- A node around the selection is not below the covering node.
      have higher := wf.mem_lineage_covering_of_held held a.root_mem_lineage cover
      obtain ⟨deeper, different⟩ := Node.mem_ancestors_iff.mp lower
      exact absurd (Node.mem_lineage_antisymm deeper higher) different
    · exact covered

/-- Shrinking finds the first of the longest nodes that fit and are not hidden. -/
theorem shrink_isLargest (wf : t.WellFormed) (lens : Lens) (held : selection.isEmpty = false) :
    Node.IsLargest (fun m => (lens.fits selection m && !m.isHidden selection) = true)
      (lens.shrink (Node.root t) selection) := by
  have visited : ∀ q : Node t, ((Node.root t).covering selection ∈ q.ancestors ∧
      Node.Open selection ((Node.root t).covering selection) q ∧
        q.Sought selection (lens.classifier.isSignificant lens.view)) ↔
      (lens.fits selection q && !q.isHidden selection) = true := by
    intro q
    rw [Bool.and_eq_true, Bool.not_eq_true', Lens.fits_iff]
    constructor
    · rintro ⟨under, way, sought⟩
      exact ⟨⟨Node.ne_root_of_mem_ancestors under, sought⟩,
        (wf.open_covering_iff held under).mp way⟩
    · rintro ⟨⟨inner, sought⟩, shown⟩
      have under := wf.covering_mem_ancestors held inner sought.1
      exact ⟨under, (wf.open_covering_iff held under).mpr shown, sought⟩
  have best : Node.IsBest none (fun q => (Node.root t).covering selection ∈ q.ancestors ∧
      Node.Open selection ((Node.root t).covering selection) q ∧
        q.Sought selection (lens.classifier.isSignificant lens.view))
      (((Node.root t).covering selection).subtree.largestWithin selection
        (lens.classifier.isSignificant lens.view) ((Node.root t).covering selection).path none) :=
    Node.largestWithin_isBest _ _
  simp only [visited] at best
  rw [Lens.shrink, if_neg (by simp [held])]
  dsimp only
  rcases best with ⟨lost, unbeaten⟩ | ⟨m, found, chosen, _, outranks⟩
  · rw [lost]
    intro q sought
    cases unbeaten q sought
  · rw [found, Option.bind_some, Tree.node?_path]
    exact ⟨chosen, outranks⟩

/-- Below the range of a node nothing is hidden. -/
theorem isHidden_of_span (wf : t.WellFormed) {m n : Node t} (inside : m.Inside selection)
    (aligned : n.span = selection) : m.isHidden selection = false := by
  rw [Node.isHidden_eq_false_iff]
  intro a above _
  rw [Span.cuts_eq_false_iff, ← aligned]
  have around := wf.covers_of_mem_lineage (Node.mem_ancestors_iff.mp above).1
  rcases wf.lineage_of_common inside.held around (aligned ▸ inside.covered) with higher | lower
  · exact .inl (wf.covers_of_mem_lineage higher)
  · exact .inr (wf.covers_of_mem_lineage lower)

end Tree.WellFormed

/-- Shrinking a selection leads to the first in pre-order of the longest nodes that fit and are
not hidden. This is the first of the longest of all nodes that fit if and only if every hidden
one of these is outranked by one that is not hidden; so it is where the selection is the range
of a node. -/
theorem Lens.shrink_largest_unhidden (wf : t.WellFormed) (lens : Lens) (selection : Span)
    (held : selection.isEmpty = false) :
    lens.shrink (Node.root t) selection =
      (t.nodes.filter fun m => lens.fits selection m && !m.isHidden selection).argmax
        (fun m => m.span.length) ∧
    (lens.shrink (Node.root t) selection =
        (t.nodes.filter (lens.fits selection)).argmax (fun m => m.span.length) ↔
      ∀ m : Node t, lens.fits selection m = true → m.isHidden selection = true →
        ∃ v : Node t, lens.fits selection v = true ∧ v.isHidden selection = false ∧ v.Outranks m) ∧
    ∀ n : Node t, n.span = selection → lens.shrink (Node.root t) selection =
      (t.nodes.filter (lens.fits selection)).argmax (fun m => m.span.length) := by
  have shown := wf.shrink_isLargest lens held
  have whole_iff := shown.unhidden_iff
  rw [Node.isLargest_iff_eq_argmax] at whole_iff
  refine ⟨Node.isLargest_iff_eq_argmax.mp shown, whole_iff, fun n aligned => whole_iff.mpr ?_⟩
  intro m sought hidden
  rw [wf.isHidden_of_span (Lens.fits_iff.mp sought).2.1 aligned] at hidden
  cases hidden

/-- The range of a statement is shrunk to the name in it, which is no longer than the arguments
but comes first. -/
theorem Lens.shrink_unhidden_in_block :
    Tree.callInBlock.WellFormed ∧ (⟨2, 8⟩ : Span).isEmpty = false ∧
    (Lens.mk .full {}).shrink (Node.root Tree.callInBlock) ⟨2, 8⟩ =
      some ⟨[0, 0, 1, 0], rfl⟩ ∧
    (Lens.mk .full {}).shrink (Node.root Tree.callInBlock) ⟨2, 8⟩ =
      (Tree.callInBlock.nodes.filter ((Lens.mk .full {}).fits ⟨2, 8⟩)).argmax
        (fun m => m.span.length) := by
  have wf : Tree.callInBlock.WellFormed := by decide
  refine ⟨wf, by decide, by decide, ?_⟩
  exact (shrink_largest_unhidden wf ⟨.full, {}⟩ ⟨2, 8⟩ (by decide)).2.2 ⟨[1, 0], rfl⟩ rfl

/-- A selection that starts inside a statement is not shrunk to the arguments of the call in
it, though they lie inside and nothing else does. -/
theorem Lens.shrink_passes_over_arguments :
    Tree.callInBlock.WellFormed ∧ (⟨5, 9⟩ : Span).isEmpty = false ∧
    (Lens.mk .full {}).shrink (Node.root Tree.callInBlock) ⟨5, 9⟩ = none ∧
    Tree.callInBlock.nodes.filter ((Lens.mk .full {}).fits ⟨5, 9⟩) = [⟨[1, 0, 1, 0], rfl⟩] := by
  decide

end Shrinking

end TreeNav
