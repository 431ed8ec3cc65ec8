import TreeNav.Proofs.Searches
import TreeNav.Proofs.WellFormed

/-!
The nearest node of a category. Both searches leave out whole subtrees by the range of
their root, and the one that goes back prefers a node to what starts with it inside it. In a
well-formed tree neither loses anything: a forward jump finds the first wanted node after the
anchor in pre-order, a backward jump the outermost of the wanted nodes with the last start
before it, and a jump finds nothing only where nothing is wanted.
-/
namespace TreeNav

namespace Node

variable {t : Tree}

/-- The node `q` lies in a child of `n` whose index is at least `i`. -/
def From (n : Node t) (i : Nat) (q : Node t) : Prop :=
  ∃ j, i ≤ j ∧ (j :: n.path) <:+ q.path

theorem from_zero_iff {n q : Node t} : n.From 0 q ↔ n ∈ q.ancestors := by
  constructor
  · rintro ⟨j, _, part⟩
    obtain ⟨c, at_c⟩ := exists_of_suffix part
    have parent : c.parent? = some n := parent?_eq_some_iff.mpr ⟨j, at_c⟩
    have above : c ∈ q.lineage := mem_lineage_iff.mpr (at_c ▸ part)
    rw [mem_ancestors_iff]
    refine ⟨mem_lineage_trans (parent_mem_lineage parent) above, ?_⟩
    rintro rfl
    have longer := part.length_le
    rw [List.length_cons] at longer
    omega
  · intro above
    obtain ⟨higher, different⟩ := mem_ancestors_iff.mp above
    obtain ⟨c, parent, between⟩ := exists_child_toward higher (Ne.symm different)
    obtain ⟨j, at_c⟩ := parent?_eq_some_iff.mp parent
    exact ⟨j, Nat.zero_le j, at_c ▸ mem_lineage_iff.mp between⟩

/-- What lies in the children from an index on lies in the first of them or in the others. -/
theorem from_iff {n c q : Node t} {i : Nat} (at_c : c.path = i :: n.path) :
    n.From i q ↔ c ∈ q.lineage ∨ n.From (i + 1) q := by
  rw [mem_lineage_iff, at_c]
  constructor
  · rintro ⟨j, le, part⟩
    by_cases first : j = i
    · exact .inl (first ▸ part)
    · exact .inr ⟨j, by omega, part⟩
  · rintro (part | ⟨j, le, part⟩)
    · exact ⟨i, Nat.le_refl i, part⟩
    · exact ⟨j, by omega, part⟩

theorem not_from_of_drop {n q : Node t} {i : Nat} (ended : n.subtree.children.drop i = []) :
    ¬ n.From i q := by
  rintro ⟨j, le, part⟩
  obtain ⟨c, at_c⟩ := exists_of_suffix part
  have inside := (List.getElem?_eq_some_iff.mp (subtree_of_child at_c)).1
  have short := List.drop_eq_nil_iff.mp ended
  omega

theorem before_of_from {n a b c : Node t} {i : Nat} (at_c : c.path = i :: n.path)
    (left : c ∈ a.lineage) (right : n.From (i + 1) b) : a.Before b := by
  obtain ⟨j, le, part⟩ := right
  exact ⟨n.path, i, j, by omega, at_c ▸ mem_lineage_iff.mp left, part⟩

/-- The node `a` comes no later than `b` in pre-order. -/
def Leads (a b : Node t) : Prop := a ∈ b.lineage ∨ a.Before b

/-- A search result is the first in pre-order of the nodes in question. -/
def IsFirst (candidate : Node t → Prop) : Option Path → Prop
  | none => ∀ q, ¬ candidate q
  | some path => ∃ m : Node t, m.path = path ∧ candidate m ∧ ∀ q, candidate q → m.Leads q

/-- A search result has the last start of the nodes in question, and none of those around it
starts there too. -/
def IsLast (candidate : Node t → Prop) : Option Hit → Prop
  | none => ∀ q, ¬ candidate q
  | some hit => ∃ m : Node t, hit = ⟨m.path, m.span⟩ ∧ candidate m ∧ ∀ q, candidate q →
      q.span.start ≤ m.span.start ∧ (q.span.start = m.span.start → q ∉ m.ancestors)

section Forward

variable {anchor : Nat} {wanted : Label → Label → Bool}

/-- Where nothing good lies in a child, what is found in the children that follow is found. -/
theorem isFirst_of_later {n c : Node t} {i : Nat} (at_c : c.path = i :: n.path)
    {good : Node t → Prop} (empty : ∀ q : Node t, c ∈ q.lineage → ¬ good q) {result : Option Path}
    (later : IsFirst (fun q => n.From (i + 1) q ∧ good q) result) :
    IsFirst (fun q => n.From i q ∧ good q) result := by
  have only : ∀ q : Node t, n.From i q ∧ good q ↔ n.From (i + 1) q ∧ good q := by
    intro q
    rw [from_iff at_c]
    constructor
    · rintro ⟨in_c | further, met⟩
      · exact absurd met (empty q in_c)
      · exact ⟨further, met⟩
    · exact And.imp_left .inr
  simpa only [only] using later

/-- What comes first in a child comes before all that lies in the children that follow. -/
theorem isFirst_of_child {n c m : Node t} {i : Nat} (at_c : c.path = i :: n.path)
    {good : Node t → Prop} (in_c : c ∈ m.lineage) (met : good m)
    (first : ∀ q : Node t, c ∈ q.lineage → good q → m.Leads q) :
    IsFirst (fun q => n.From i q ∧ good q) (some m.path) := by
  refine ⟨m, rfl, ⟨(from_iff at_c).mpr (.inl in_c), met⟩, ?_⟩
  rintro q ⟨inside, met'⟩
  rcases (from_iff at_c).mp inside with in_c' | further
  · exact first q in_c' met'
  · exact .inr (before_of_from at_c in_c further)

theorem firstAfterAmong_isFirst (wf : t.WellFormed) {n : Node t} {i : Nat} {rest : List Tree}
    (left : n.subtree.children.drop i = rest)
    (deeper : ∀ c : Node t, c.parent? = some n →
      IsFirst (fun q => c ∈ q.ancestors ∧ q.Meets wanted ∧ anchor < q.span.start)
        (c.subtree.firstAfter anchor wanted c.path)) :
    IsFirst (fun q => n.From i q ∧ q.Meets wanted ∧ anchor < q.span.start)
      (Tree.firstAfterAmong anchor wanted n.label n.path i rest) := by
  induction rest generalizing i with
  | nil => exact fun q wished => not_from_of_drop left wished.1
  | cons s others ih =>
    obtain ⟨c, at_c, same, tail⟩ := exists_child_of_drop left
    have parent : c.parent? = some n := parent?_eq_some_iff.mpr ⟨i, at_c⟩
    have label_c : s.label = c.label := by rw [label, same]
    have span_c : s.span = c.span := by rw [Tree.span, label_c]; rfl
    have below := deeper c parent
    rw [Tree.firstAfterAmong, label_c, span_c, ← at_c, ← same]
    split
    · -- All of `c` ends too early.
      rename_i ended
      refine isFirst_of_later at_c ?_ (ih tail)
      rintro q in_c ⟨_, after⟩
      have inside := (Span.covers_iff ..).mp (wf.covers_of_mem_lineage in_c)
      have width := wf.ordered q
      omega
    · split
      · rename_i hit
        simp only [Bool.and_eq_true, decide_eq_true_eq] at hit
        exact isFirst_of_child at_c c.self_mem_lineage ⟨⟨n, parent, hit.2⟩, hit.1⟩
          fun q in_c _ => .inl in_c
      · -- What is wanted in `c` is not `c` itself, so it lies below `c`.
        rename_i missed
        have under : ∀ q : Node t, c ∈ q.lineage → q.Meets wanted ∧ anchor < q.span.start →
            c ∈ q.ancestors := by
          rintro q in_c ⟨⟨p, over_q, match_q⟩, after⟩
          refine mem_ancestors_iff.mpr ⟨in_c, ?_⟩
          rintro rfl
          rw [parent, Option.some.injEq] at over_q
          subst over_q
          exact missed (by simp [after, match_q])
        split
        · rename_i path found
          rw [found] at below
          obtain ⟨m, rfl, ⟨under_m, met⟩, first⟩ := below
          exact isFirst_of_child at_c (mem_ancestors_iff.mp under_m).1 met
            fun q in_c met' => first q ⟨under q in_c met', met'⟩
        · rename_i none_below
          rw [none_below] at below
          exact isFirst_of_later at_c (fun q in_c met => below q ⟨under q in_c met, met⟩) (ih tail)

theorem firstAfter_isFirst (wf : t.WellFormed) (anchor : Nat) (wanted : Label → Label → Bool)
    (n : Node t) :
    IsFirst (fun q => n ∈ q.ancestors ∧ q.Meets wanted ∧ anchor < q.span.start)
      (n.subtree.firstAfter anchor wanted n.path) := by
  simp only [← from_zero_iff, Tree.firstAfter_eq]
  exact firstAfterAmong_isFirst wf rfl fun c parent => firstAfter_isFirst wf anchor wanted c
termination_by sizeOf n.subtree
decreasing_by exact sizeOf_subtree_lt parent

end Forward

section Backward

variable {anchor : Nat} {wanted : Label → Label → Bool}

/-- What is found in one child: the child itself if it is wanted and nothing inside it starts
later, else what is found below it. -/
theorem isLast_child (wf : t.WellFormed) {n c : Node t} (parent : c.parent? = some n)
    (deeper : IsLast (fun q => c ∈ q.ancestors ∧ q.Meets wanted ∧ q.span.start < anchor)
      (c.subtree.lastBefore anchor wanted c.path)) (early : c.span.start < anchor) :
    IsLast (fun q => c ∈ q.lineage ∧ q.Meets wanted ∧ q.span.start < anchor)
      (let own := if wanted n.label c.label then some ⟨c.path, c.span⟩ else none
       match c.subtree.lastBefore anchor wanted c.path with
       | some hit => if own.isSome && hit.span.start == c.span.start then own else some hit
       | none => own) := by
  have own_iff : c.Meets wanted ↔ wanted n.label c.label = true := by
    constructor
    · rintro ⟨p, over_c, match_c⟩
      rw [parent, Option.some.injEq] at over_c
      exact over_c ▸ match_c
    · exact fun match_c => ⟨n, parent, match_c⟩
  -- The child itself, where nothing inside it starts later.
  have itself (match_c : wanted n.label c.label = true)
      (inner : ∀ q : Node t, c ∈ q.ancestors → q.Meets wanted → q.span.start < anchor →
        q.span.start ≤ c.span.start) :
      IsLast (fun q => c ∈ q.lineage ∧ q.Meets wanted ∧ q.span.start < anchor)
        (some ⟨c.path, c.span⟩) := by
    refine ⟨c, rfl, ⟨c.self_mem_lineage, own_iff.mpr match_c, early⟩, ?_⟩
    rintro q ⟨in_c, met, before⟩
    by_cases same : c = q
    · subst same
      exact ⟨Nat.le_refl _, fun _ above => (mem_ancestors_iff.mp above).2 rfl⟩
    · refine ⟨inner q (mem_ancestors_iff.mpr ⟨in_c, same⟩) met before, fun _ above => same ?_⟩
      exact mem_lineage_antisymm in_c (mem_ancestors_iff.mp above).1
  generalize c.subtree.lastBefore anchor wanted c.path = result at deeper
  cases result with
  | none =>
    cases match_c : wanted n.label c.label with
    | true => exact itself match_c fun q under met before => absurd ⟨under, met, before⟩ (deeper q)
    | false =>
      rintro q ⟨in_c, met, before⟩
      by_cases same : c = q
      · rw [← same, own_iff, match_c] at met
        cases met
      · exact deeper q ⟨mem_ancestors_iff.mpr ⟨in_c, same⟩, met, before⟩
  | some hit =>
    obtain ⟨m, rfl, ⟨under, met, before⟩, last⟩ := deeper
    have inside := (Span.covers_iff ..).mp (wf.covers_of_mem_lineage (mem_ancestors_iff.mp under).1)
    -- The child wins over what starts with it, and loses to what starts later.
    have deep (later : wanted n.label c.label = true → m.span.start ≠ c.span.start) :
        IsLast (fun q => c ∈ q.lineage ∧ q.Meets wanted ∧ q.span.start < anchor)
          (some ⟨m.path, m.span⟩) := by
      refine ⟨m, rfl, ⟨(mem_ancestors_iff.mp under).1, met, before⟩, ?_⟩
      rintro q ⟨in_c, met', before'⟩
      by_cases same : c = q
      · subst same
        have apart := later (own_iff.mp met')
        exact ⟨by omega, by omega⟩
      · exact last q ⟨mem_ancestors_iff.mpr ⟨in_c, same⟩, met', before'⟩
    cases match_c : wanted n.label c.label with
    | true =>
      by_cases together : m.span.start = c.span.start
      · simp only [together, if_true, Option.isSome_some, Bool.true_and, beq_self_eq_true]
        refine itself match_c fun q under' met' before' => ?_
        exact together ▸ (last q ⟨under', met', before'⟩).1
      · simpa [together] using deep fun _ => together
    | false => simpa using deep fun match_c' => absurd match_c' (by simp [match_c])

theorem lastBeforeAmong_isLast (wf : t.WellFormed) {n : Node t} {i : Nat} {rest : List Tree}
    (left : n.subtree.children.drop i = rest)
    (deeper : ∀ c : Node t, c.parent? = some n →
      IsLast (fun q => c ∈ q.ancestors ∧ q.Meets wanted ∧ q.span.start < anchor)
        (c.subtree.lastBefore anchor wanted c.path)) :
    IsLast (fun q => n.From i q ∧ q.Meets wanted ∧ q.span.start < anchor)
      (Tree.lastBeforeAmong anchor wanted n.label n.path i rest) := by
  induction rest generalizing i with
  | nil => exact fun q wished => not_from_of_drop left wished.1
  | cons s others ih =>
    obtain ⟨c, at_c, same, tail⟩ := exists_child_of_drop left
    have parent : c.parent? = some n := parent?_eq_some_iff.mpr ⟨i, at_c⟩
    have label_c : s.label = c.label := by rw [label, same]
    have span_c : s.span = c.span := by rw [Tree.span, label_c]; rfl
    have later := ih tail
    simp only [from_iff at_c]
    rw [Tree.lastBeforeAmong, label_c, span_c, ← at_c, ← same]
    generalize Tree.lastBeforeAmong anchor wanted n.label n.path (i + 1) others = result at later
    cases result with
    | some hit =>
      obtain ⟨m, rfl, ⟨further, met, before⟩, last⟩ := later
      refine ⟨m, rfl, ⟨.inr further, met, before⟩, ?_⟩
      rintro q ⟨in_c | further', met', before'⟩
      · have order := before_of_from at_c in_c further
        have apart := wf.stop_le_start_of_before order
        have width := wf.ordered q
        exact ⟨by omega, fun _ above => order.not_mem_lineage.1 (mem_ancestors_iff.mp above).1⟩
      · exact last q ⟨further', met', before'⟩
    | none =>
      -- Nothing was found later, so what is found in `c` decides.
      have only : ∀ q : Node t, (c ∈ q.lineage ∨ n.From (i + 1) q) ∧ q.Meets wanted ∧
          q.span.start < anchor ↔ c ∈ q.lineage ∧ q.Meets wanted ∧ q.span.start < anchor := by
        intro q
        constructor
        · rintro ⟨in_c | further, rest⟩
          · exact ⟨in_c, rest⟩
          · exact absurd ⟨further, rest⟩ (later q)
        · exact And.imp_left .inl
      simp only [only]
      split
      · rename_i late
        rintro q ⟨in_c, _, before⟩
        have inside := (Span.covers_iff ..).mp (wf.covers_of_mem_lineage in_c)
        omega
      · rename_i early
        exact isLast_child wf parent (deeper c parent) (by omega)

theorem lastBefore_isLast (wf : t.WellFormed) (anchor : Nat) (wanted : Label → Label → Bool)
    (n : Node t) :
    IsLast (fun q => n ∈ q.ancestors ∧ q.Meets wanted ∧ q.span.start < anchor)
      (n.subtree.lastBefore anchor wanted n.path) := by
  simp only [← from_zero_iff, Tree.lastBefore_eq]
  exact lastBeforeAmong_isLast wf rfl fun c parent => lastBefore_isLast wf anchor wanted c
termination_by sizeOf n.subtree
decreasing_by exact sizeOf_subtree_lt parent

end Backward

end Node

namespace Lens

variable {t : Tree} (lens : Lens)

theorem belongs_meets {category : Category} {n m : Node t} (below : n ∈ m.ancestors)
    (member : lens.belongs category m = true) :
    m.Meets fun above label => lens.classifier.belongs lens.view category (some above) label := by
  have inner : m ≠ Node.root t := by
    rintro rfl
    cases below
  obtain ⟨p, parent⟩ := Node.parent?_isSome inner
  rw [belongs, parent] at member
  exact ⟨p, parent, member⟩

end Lens

namespace Tree.WellFormed

variable {t : Tree} {lens : Lens} {n current q : Node t} {category : Category}

/-- A forward jump finds the first node of the category below `n`, in pre-order, among those
that start after the current one. -/
theorem jump_forward_first (wf : t.WellFormed) (below : n ∈ q.ancestors)
    (member : lens.belongs category q = true) (after : current.span.start < q.span.start) :
    ∃ m, lens.jump n current category .forward = some m ∧ m.Leads q := by
  have spec := Node.firstAfter_isFirst wf current.span.start
    (fun above label => lens.classifier.belongs lens.view category (some above) label) n
  have met := lens.belongs_meets below member
  simp only [Lens.jump]
  generalize n.subtree.firstAfter _ _ n.path = result at spec
  cases result with
  | none => exact absurd ⟨below, met, after⟩ (spec q)
  | some path =>
    obtain ⟨m, rfl, _, first⟩ := spec
    exact ⟨m, Tree.node?_path m, first q ⟨below, met, after⟩⟩

theorem leads_of_jump_forward {m : Node t} (wf : t.WellFormed)
    (found : lens.jump n current category .forward = some m) (below : n ∈ q.ancestors)
    (member : lens.belongs category q = true) (after : current.span.start < q.span.start) :
    m.Leads q := by
  obtain ⟨first, again, leads⟩ := wf.jump_forward_first below member after
  rw [found, Option.some.injEq] at again
  exact again ▸ leads

/-- A backward jump finds a node of the category below `n` whose start is the last before the
current one, and no node around it starts there too. -/
theorem jump_backward_last (wf : t.WellFormed) (below : n ∈ q.ancestors)
    (member : lens.belongs category q = true) (before : q.span.start < current.span.start) :
    ∃ m, lens.jump n current category .backward = some m ∧ q.span.start ≤ m.span.start ∧
      (q.span.start = m.span.start → q ∉ m.ancestors) := by
  have spec := Node.lastBefore_isLast wf current.span.start
    (fun above label => lens.classifier.belongs lens.view category (some above) label) n
  have met := lens.belongs_meets below member
  simp only [Lens.jump]
  generalize n.subtree.lastBefore _ _ n.path = result at spec
  cases result with
  | none => exact absurd ⟨below, met, before⟩ (spec q)
  | some hit =>
    obtain ⟨m, rfl, _, last⟩ := spec
    exact ⟨m, Tree.node?_path m, last q ⟨below, met, before⟩⟩

theorem start_le_of_jump_backward {m : Node t} (wf : t.WellFormed)
    (found : lens.jump n current category .backward = some m) (below : n ∈ q.ancestors)
    (member : lens.belongs category q = true) (before : q.span.start < current.span.start) :
    q.span.start ≤ m.span.start ∧ (q.span.start = m.span.start → q ∉ m.ancestors) := by
  obtain ⟨last, again, upto⟩ := wf.jump_backward_last below member before
  rw [found, Option.some.injEq] at again
  exact again ▸ upto

end Tree.WellFormed

end TreeNav
