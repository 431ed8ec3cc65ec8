import TreeNav.Locate.Position
import TreeNav.Proofs.WellFormed

/-!
From a caret or a selection to a node. A descent ends at a node below its start, has
entered every node on the way, and could enter none further. In a well-formed tree this
makes the result the lowest of all nodes around the selection, whichever child was tried
first.
-/
namespace TreeNav

namespace Node

variable {t : Tree}

theorem path_descend (n : Node t) (enter : Span → Bool) :
    (n.descend enter).path = n.subtree.descend enter n.path := rfl

/-- Where the loop over the children of a node leads: into one that may be entered, or
nowhere if there is none. -/
theorem descendAmong_cases (n : Node t) (enter : Span → Bool) (i : Nat) (rest : List Tree)
    (left : n.subtree.children.drop i = rest) :
    (∃ c : Node t, c.parent? = some n ∧ enter c.span = true ∧
      Tree.descendAmong enter n.path i rest = (c.descend enter).path) ∨
    ((∀ (c : Node t) (j : Nat), i ≤ j → c.path = j :: n.path → enter c.span = false) ∧
      Tree.descendAmong enter n.path i rest = n.path) := by
  induction rest generalizing i with
  | nil =>
    refine .inr ⟨?_, rfl⟩
    intro c j le at_c
    have inside := (List.getElem?_eq_some_iff.mp (subtree_of_child at_c)).1
    have ended := List.drop_eq_nil_iff.mp left
    omega
  | cons s others ih =>
    obtain ⟨child, at_c, same, tail⟩ := exists_child_of_drop left
    rw [Tree.descendAmong]
    split
    · rename_i allowed
      refine .inl ⟨child, parent?_eq_some_iff.mpr ⟨i, at_c⟩, ?_, ?_⟩
      · rw [span, label, same]
        exact allowed
      · rw [path_descend, same, at_c]
    · rename_i refused
      rcases ih (i + 1) tail with found | ⟨none_later, stays⟩
      · exact .inl found
      · refine .inr ⟨?_, stays⟩
        intro c j le at_j
        by_cases first : j = i
        · subst first
          rw [(ext (at_j.trans at_c.symm) : c = child), span, label, same]
          exact Bool.eq_false_iff.mpr refused
        · exact none_later c j (by omega) at_j

theorem descend_cases (n : Node t) (enter : Span → Bool) :
    (∃ c : Node t, c.parent? = some n ∧ enter c.span = true ∧
      n.descend enter = c.descend enter) ∨
    ((∀ c : Node t, c.parent? = some n → enter c.span = false) ∧ n.descend enter = n) := by
  have unfolded : (n.descend enter).path =
      Tree.descendAmong enter n.path 0 n.subtree.children := by
    rw [path_descend]
    cases n.subtree
    rfl
  rcases descendAmong_cases n enter 0 n.subtree.children rfl with
    ⟨c, parent, entered, goes⟩ | ⟨refused, stays⟩
  · exact .inl ⟨c, parent, entered, ext (unfolded.trans goes)⟩
  · refine .inr ⟨?_, ext (unfolded.trans stays)⟩
    intro c parent
    obtain ⟨j, at_c⟩ := parent?_eq_some_iff.mp parent
    exact refused c j (Nat.zero_le j) at_c

/-- What a descent from `n` to `r` has done. -/
structure Descent (enter : Span → Bool) (n r : Node t) : Prop where
  below : n ∈ r.lineage
  entered : ∀ a ∈ r.lineage, n ∈ a.lineage → a ≠ n → enter a.span = true
  ended : ∀ c : Node t, c.parent? = some r → enter c.span = false

theorem descent_descend (n : Node t) (enter : Span → Bool) : Descent enter n (n.descend enter) := by
  rcases descend_cases n enter with ⟨c, parent, allowed, same⟩ | ⟨refused, same⟩
  · have rest := descent_descend c enter
    rw [same]
    refine ⟨mem_lineage_trans (parent_mem_lineage parent) rest.below, ?_, rest.ended⟩
    intro a higher below different
    rcases mem_lineage_total higher rest.below with up | down
    · rw [lineage_of_parent? parent, List.mem_cons] at up
      rcases up with rfl | up
      · exact allowed
      · exact absurd (mem_lineage_antisymm up below) different
    · by_cases first : a = c
      · exact first ▸ allowed
      · exact rest.entered a higher down first
  · rw [same]
    refine ⟨n.self_mem_lineage, ?_, refused⟩
    intro a up below different
    exact absurd (mem_lineage_antisymm up below) different
termination_by sizeOf n.subtree
decreasing_by exact sizeOf_subtree_lt parent

/-- A selection that holds something is looked for by its ends alone. -/
theorem covering_eq_descend (n : Node t) {selection : Span} (held : selection.isEmpty = false) :
    n.covering selection = n.descend fun s => s.covers selection := by
  have same : (fun s : Span => !s.isEmpty && s.covers selection) = fun s => s.covers selection := by
    funext s
    cases cover : s.covers selection with
    | false => rw [Bool.and_false]
    | true => rw [Span.not_isEmpty_of_covers cover held]; rfl
  rw [covering, if_neg (by simp [held]), same]

/-- A caret stands for the byte after it. -/
theorem atOffset_eq_covering (n : Node t) (offset : Nat) :
    n.atOffset offset = n.covering ⟨n.clamp offset, n.clamp offset + 1⟩ := by
  have same : (fun s : Span => !s.isEmpty && s.contains (n.clamp offset)) =
      fun s => s.covers ⟨n.clamp offset, n.clamp offset + 1⟩ := by
    funext s
    rw [Span.covers_byte, Bool.eq_iff_iff, Bool.and_eq_true, Bool.not_eq_true',
      Span.isEmpty_eq_false_iff, Span.contains_iff]
    omega
  rw [covering_eq_descend n (by simp [Span.isEmpty]), atOffset, same]

/-- The bytes for which the covering node of a selection is looked for: its own, or the
one after the caret. -/
def probe (n : Node t) (selection : Span) : Span :=
  if selection.isEmpty then ⟨n.clamp selection.start, n.clamp selection.start + 1⟩ else selection

theorem probe_held (n : Node t) (selection : Span) : (n.probe selection).isEmpty = false := by
  unfold probe
  split
  · simp [Span.isEmpty]
  · rename_i held
    exact Bool.eq_false_iff.mpr held

theorem probe_of_held (n : Node t) {selection : Span} (held : selection.isEmpty = false) :
    n.probe selection = selection := by
  simp [probe, held]

theorem probe_caret (n : Node t) (offset : Nat) :
    n.probe (Span.caret offset) = ⟨n.clamp offset, n.clamp offset + 1⟩ := by
  simp [probe, Span.caret, Span.isEmpty]

theorem covering_caret (n : Node t) (offset : Nat) :
    n.covering (Span.caret offset) = n.atOffset offset := by
  rw [covering, if_pos (by simp [Span.caret, Span.isEmpty])]
  rfl

theorem covering_eq_descend_probe (n : Node t) (selection : Span) :
    n.covering selection = n.descend fun s => s.covers (n.probe selection) := by
  cases empty : selection.isEmpty with
  | false => rw [covering_eq_descend n empty, probe, empty]; rfl
  | true =>
    have caret : n.covering selection = n.atOffset selection.start := by
      rw [covering, if_pos empty]
    rw [caret, atOffset_eq_covering, covering_eq_descend n (by simp [Span.isEmpty]), probe,
      if_pos empty]

theorem descent_covering (n : Node t) (selection : Span) :
    Descent (fun s => s.covers (n.probe selection)) n (n.covering selection) := by
  rw [covering_eq_descend_probe]
  exact descent_descend n _

/-- A node that is not the start of the search was entered. -/
theorem covers_of_covering_ne {n : Node t} {selection : Span} (moved : n.covering selection ≠ n) :
    (n.covering selection).span.covers (n.probe selection) = true := by
  have descent := descent_covering n selection
  exact descent.entered _ (self_mem_lineage _) descent.below moved

theorem covering_held {n : Node t} {selection : Span} (moved : n.covering selection ≠ n) :
    (n.covering selection).span.isEmpty = false :=
  Span.not_isEmpty_of_covers (covers_of_covering_ne moved) (n.probe_held selection)

/-- The same for a caret: what was entered is around the byte that the caret stands for. -/
theorem contains_of_atOffset_ne {n : Node t} {offset : Nat} (moved : n.atOffset offset ≠ n) :
    (n.atOffset offset).span.contains (n.clamp offset) = true := by
  rw [← covering_caret] at *
  have entered := covers_of_covering_ne moved
  rwa [probe_caret, Span.covers_byte] at entered

theorem covering_covers {n : Node t} {selection : Span}
    (inside : n.span.covers (n.probe selection) = true) :
    (n.covering selection).span.covers (n.probe selection) = true := by
  by_cases stayed : n.covering selection = n
  · rw [stayed]
    exact inside
  · exact covers_of_covering_ne stayed

end Node

namespace Tree.WellFormed

variable {t : Tree}

/-- A caret that some node contains stands for the byte after it. -/
theorem probe_of_contains (wf : t.WellFormed) {n : Node t} {selection : Span}
    (empty : selection.isEmpty = true) (inside : n.span.contains selection.start = true) :
    (Node.root t).probe selection = ⟨selection.start, selection.start + 1⟩ := by
  have around := (Span.covers_iff ..).mp (wf.covers_of_mem_lineage n.root_mem_lineage)
  rw [Span.contains_iff] at inside
  have kept : (Node.root t).clamp selection.start = selection.start := by
    rw [Node.clamp, if_neg]
    simp only [Bool.and_eq_true, decide_eq_true_eq]
    omega
  rw [Node.probe, if_pos empty, kept]

/-- Every node around the bytes that are looked for is the covering node or above it. -/
theorem mem_lineage_covering (wf : t.WellFormed) {n m : Node t} {selection : Span}
    (below : n ∈ m.lineage) (cover : m.span.covers (n.probe selection) = true) :
    m ∈ (n.covering selection).lineage := by
  have descent := Node.descent_covering n selection
  have held := n.probe_held selection
  have start := Span.covers_trans (wf.covers_of_mem_lineage below) cover
  rcases wf.lineage_of_common held cover (Node.covering_covers start) with above | under
  · exact above
  · by_cases same : m = n.covering selection
    · exact same ▸ m.self_mem_lineage
    · -- The descent would have gone on towards `m`.
      obtain ⟨c, parent, higher⟩ := Node.exists_child_toward under same
      have further := Span.covers_trans (wf.covers_of_mem_lineage higher) cover
      rw [descent.ended c parent] at further
      cases further

/-- Every node around a selection that holds something is the covering node or above it. -/
theorem mem_lineage_covering_of_held (wf : t.WellFormed) {n m : Node t} {selection : Span}
    (held : selection.isEmpty = false) (below : n ∈ m.lineage)
    (cover : m.span.covers selection = true) : m ∈ (n.covering selection).lineage := by
  apply wf.mem_lineage_covering below
  rwa [n.probe_of_held held]

/-- A caret at the start of a node finds the node or something that starts with it. -/
theorem covering_of_start (wf : t.WellFormed) {n : Node t} {selection : Span}
    (empty : selection.isEmpty = true) (held : n.span.isEmpty = false)
    (meets : n.span.start = selection.start) :
    n ∈ ((Node.root t).covering selection).lineage ∧
      ((Node.root t).covering selection).span.start = n.span.start := by
  have inside : n.span.contains selection.start = true := by
    rw [Span.isEmpty_eq_false_iff] at held
    rw [Span.contains_iff]
    omega
  have probed := wf.probe_of_contains empty inside
  have cover : n.span.covers ((Node.root t).probe selection) = true := by
    rw [probed, Span.covers_byte, inside]
  have around := wf.covers_of_mem_lineage n.root_mem_lineage
  have above := wf.mem_lineage_covering n.root_mem_lineage cover
  refine ⟨above, ?_⟩
  have inner := (Span.covers_iff ..).mp (wf.covers_of_mem_lineage above)
  have outer := Node.covering_covers (Span.covers_trans around cover)
  rw [probed, Span.covers_byte, Span.contains_iff] at outer
  omega

/-- The range of a node leads back to the innermost node of that range. -/
theorem covering_span (wf : t.WellFormed) {n : Node t} (held : n.span.isEmpty = false) :
    ((Node.root t).covering n.span).span = n.span ∧ n ∈ ((Node.root t).covering n.span).lineage ∧
      (∀ m : Node t, m.span = n.span → m ∈ ((Node.root t).covering n.span).lineage) ∧
      ∀ c : Node t, c.parent? = some ((Node.root t).covering n.span) → c.span ≠ n.span := by
  have probed := (Node.root t).probe_of_held held
  have inner : ∀ m : Node t, m.span = n.span → m ∈ ((Node.root t).covering n.span).lineage := by
    intro m same
    apply wf.mem_lineage_covering_of_held held m.root_mem_lineage
    rw [same]
    exact Span.covers_refl _
  have outward : ((Node.root t).covering n.span).span.covers n.span = true := by
    have around := wf.covers_of_mem_lineage n.root_mem_lineage
    rw [← probed] at around
    have cover := Node.covering_covers around
    rwa [probed] at cover
  have inward := wf.covers_of_mem_lineage (inner n rfl)
  refine ⟨Span.covers_antisymm outward inward, inner n rfl, inner, ?_⟩
  intro c parent same
  have refused := (Node.descent_covering (Node.root t) n.span).ended c parent
  rw [probed, same, Span.covers_refl] at refused
  cases refused

end Tree.WellFormed

end TreeNav
