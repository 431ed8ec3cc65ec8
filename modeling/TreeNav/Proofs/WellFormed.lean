import TreeNav.Proofs.Enumeration
import TreeNav.Proofs.Lineage

/-!
Well-formed trees, in which the ranges of the nodes agree with their places: a node covers
all below it, and a node that comes before another ends where the other starts or earlier.
So two nodes that hold a byte in common lie one above the other.
-/
namespace TreeNav

/-- No range is backward and a child lies inside its parent; siblings may overlap. -/
structure Tree.Nested (t : Tree) : Prop where
  ordered : ∀ n : Node t, n.span.start ≤ n.span.stop
  nested : ∀ n : Node t, ∀ c ∈ n.children, n.span.covers c.span = true

/-- No range is backward, a child lies inside its parent, and a node ends no later than the
next sibling starts. Empty nodes are allowed. -/
structure Tree.WellFormed (t : Tree) : Prop where
  ordered : ∀ n : Node t, n.span.start ≤ n.span.stop
  nested : ∀ n : Node t, ∀ c ∈ n.children, n.span.covers c.span = true
  disjoint : ∀ n : Node t, ∀ m ∈ n.next?, n.span.stop ≤ m.span.start

/-- Every node other than the root holds at least one byte. -/
def Tree.Filled (t : Tree) : Prop := ∀ n : Node t, n.isRoot = false → n.span.isEmpty = false

instance (t : Tree) : Decidable t.Nested :=
  decidable_of_iff
    ((∀ n : Node t, n.span.start ≤ n.span.stop) ∧
      ∀ n : Node t, ∀ c ∈ n.children, n.span.covers c.span = true)
    ⟨fun ⟨ordered, nested⟩ => ⟨ordered, nested⟩, fun ok => ⟨ok.ordered, ok.nested⟩⟩

instance (t : Tree) : Decidable t.WellFormed :=
  decidable_of_iff
    ((∀ n : Node t, n.span.start ≤ n.span.stop) ∧
      (∀ n : Node t, ∀ c ∈ n.children, n.span.covers c.span = true) ∧
      ∀ n : Node t, ∀ m ∈ n.next?, n.span.stop ≤ m.span.start)
    ⟨fun ⟨ordered, nested, disjoint⟩ => ⟨ordered, nested, disjoint⟩,
      fun wf => ⟨wf.ordered, wf.nested, wf.disjoint⟩⟩

instance (t : Tree) : Decidable t.Filled :=
  inferInstanceAs (Decidable (∀ n : Node t, n.isRoot = false → n.span.isEmpty = false))

/-- A call inside a block: the statement and the call stand for the same bytes. -/
def Tree.callInBlock : Tree :=
  .node ⟨"file", true, ⟨0, 11⟩⟩ [
    .node ⟨"block", true, ⟨0, 10⟩⟩ [
      .node ⟨"begin", false, ⟨0, 1⟩⟩ [],
      .node ⟨"statement", true, ⟨2, 8⟩⟩ [
        .node ⟨"call", true, ⟨2, 8⟩⟩ [
          .node ⟨"name", true, ⟨2, 5⟩⟩ [],
          .node ⟨"arguments", true, ⟨5, 8⟩⟩ []]],
      .node ⟨"end", false, ⟨9, 10⟩⟩ []]]

namespace Span

theorem ext {a b : Span} (start : a.start = b.start) (stop : a.stop = b.stop) : a = b := by
  cases a
  cases b
  cases start
  cases stop
  rfl

theorem covers_antisymm {a b : Span} (ab : a.covers b = true) (ba : b.covers a = true) : a = b := by
  rw [covers_iff] at ab ba
  exact ext (by omega) (by omega)

/-- To cover a single byte is to contain it. -/
theorem covers_byte (s : Span) (offset : Nat) :
    s.covers ⟨offset, offset + 1⟩ = s.contains offset := by
  rw [Bool.eq_iff_iff, covers_iff, contains_iff]
  dsimp only
  omega

theorem not_isEmpty_of_covers {a b : Span} (cover : a.covers b = true) (held : b.isEmpty = false) :
    a.isEmpty = false := by
  rw [covers_iff] at cover
  rw [isEmpty_eq_false_iff] at *
  omega

end Span

namespace Node

variable {t : Tree}

theorem next?_eq_some_iff {n m : Node t} :
    n.next? = some m ↔ ∃ i up, n.path = i :: up ∧ m.path = (i + 1) :: up := by
  obtain ⟨path, valid⟩ := n
  cases path with
  | nil => simp [next?]
  | cons i up =>
    rw [next?, child?_eq_some_iff]
    constructor
    · intro at_m
      exact ⟨i, up, rfl, at_m⟩
    · rintro ⟨_, _, same, at_m⟩
      cases same
      exact at_m

/-- Every index up to that of a child is the index of a child. -/
theorem exists_sibling {d p : Node t} {i j : Nat} (at_d : d.path = j :: p.path) (le : i ≤ j) :
    ∃ c : Node t, c.path = i :: p.path := by
  have valid := d.valid
  rw [at_d, Tree.at?_cons, at?_path] at valid
  have inside : j < p.childCount := by simpa [childCount] using valid
  exact ⟨p.child ⟨i, by omega⟩, rfl⟩

end Node

/-- Where children lie inside their parents, a node covers everything below it. -/
theorem Tree.Nested.covers_of_mem_lineage {t : Tree} {a n : Node t} (ok : t.Nested)
    (above : a ∈ n.lineage) : a.span.covers n.span = true := by
  refine Node.lineage_induction (motive := fun n => a.span.covers n.span = true)
    (Span.covers_refl _) ?_ above
  intro n p parent _ cover
  exact Span.covers_trans cover (ok.nested p n (Node.mem_children_iff.mpr parent))

namespace Tree.WellFormed

variable {t : Tree} {a b n : Node t}

theorem toNested (wf : t.WellFormed) : t.Nested := ⟨wf.ordered, wf.nested⟩

theorem covers_of_mem_lineage (wf : t.WellFormed) (above : a ∈ n.lineage) :
    a.span.covers n.span = true :=
  wf.toNested.covers_of_mem_lineage above

theorem stop_le_start_of_siblings (wf : t.WellFormed) {c d p : Node t} {i j : Nat} (less : i < j)
    (at_c : c.path = i :: p.path) (at_d : d.path = j :: p.path) : c.span.stop ≤ d.span.start := by
  -- The distance between the two is bridged one sibling at a time.
  induction j generalizing d with
  | zero => omega
  | succ j ih =>
    by_cases adjacent : i = j
    · subst adjacent
      exact wf.disjoint c d (Node.next?_eq_some_iff.mpr ⟨i, p.path, at_c, at_d⟩)
    · obtain ⟨e, at_e⟩ := Node.exists_sibling at_d (Nat.le_succ j)
      have reached := ih (by omega) at_e
      have width := wf.ordered e
      have last := wf.disjoint e d (Node.next?_eq_some_iff.mpr ⟨j, p.path, at_e, at_d⟩)
      omega

theorem stop_le_start_of_before (wf : t.WellFormed) (order : a.Before b) :
    a.span.stop ≤ b.span.start := by
  obtain ⟨p, c, d, i, j, less, at_c, at_d, over_a, over_b⟩ := order.siblings
  have apart := wf.stop_le_start_of_siblings less at_c at_d
  have left := (Span.covers_iff ..).mp (wf.covers_of_mem_lineage over_a)
  have right := (Span.covers_iff ..).mp (wf.covers_of_mem_lineage over_b)
  omega

/-- Nodes that hold a byte in common lie one above the other. -/
theorem lineage_of_common (wf : t.WellFormed) {selection : Span} (held : selection.isEmpty = false)
    (left : a.span.covers selection = true) (right : b.span.covers selection = true) :
    a ∈ b.lineage ∨ b ∈ a.lineage := by
  rw [Span.isEmpty_eq_false_iff] at held
  rw [Span.covers_iff] at left right
  rcases Node.lineage_or_before a b with above | below | before | after
  · exact .inl above
  · exact .inr below
  · have apart := wf.stop_le_start_of_before before
    omega
  · have apart := wf.stop_le_start_of_before after
    omega

end Tree.WellFormed

end TreeNav
