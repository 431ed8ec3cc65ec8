import TreeNav.Locate.Motion
import TreeNav.Proofs.Lineage

/-!
What the searches below a node find. A jump finds a node of the category that starts on
the asked side of its anchor; shrinking finds a significant node that lies inside the
selection, holds something and does not fill it.
-/
namespace TreeNav

namespace Tree

theorem firstAfter_eq (anchor : Nat) (wanted : Label → Label → Bool) (here : Path) (s : Tree) :
    s.firstAfter anchor wanted here = firstAfterAmong anchor wanted s.label here 0 s.children := by
  cases s
  rfl

theorem lastBefore_eq (anchor : Nat) (wanted : Label → Label → Bool) (here : Path) (s : Tree) :
    s.lastBefore anchor wanted here = lastBeforeAmong anchor wanted s.label here 0 s.children := by
  cases s
  rfl

theorem largestWithin_eq (selection : Span) (qualifies : Label → Bool) (here : Path)
    (best : Option Hit) (s : Tree) :
    s.largestWithin selection qualifies here best =
      largestAmong selection qualifies here 0 best s.children := by
  cases s
  rfl

theorem node?_path {t : Tree} (n : Node t) : t.node? n.path = some n := by
  rw [node?, dif_pos n.valid]

end Tree

namespace Node

variable {t : Tree}

/-- The path leads to a node below `n` of which `good` holds. -/
def LeadsBelow (n : Node t) (good : Node t → Prop) (path : Path) : Prop :=
  ∃ m : Node t, m.path = path ∧ n ∈ m.ancestors ∧ good m

theorem mem_ancestors_of_parent? {n c : Node t} (parent : c.parent? = some n) :
    n ∈ c.ancestors := by
  rw [ancestors_of_parent? parent]
  exact n.self_mem_lineage

theorem ancestors_of_child {n c m : Node t} (parent : c.parent? = some n)
    (above : c ∈ m.ancestors) : n ∈ m.ancestors := by
  obtain ⟨higher, different⟩ := mem_ancestors_iff.mp above
  refine mem_ancestors_iff.mpr ⟨mem_lineage_trans (parent_mem_lineage parent) higher, ?_⟩
  rintro rfl
  exact different (mem_lineage_antisymm higher (parent_mem_lineage parent))

theorem leadsBelow_child {n c : Node t} {good : Node t → Prop} (parent : c.parent? = some n)
    (holds : good c) : n.LeadsBelow good c.path :=
  ⟨c, rfl, mem_ancestors_of_parent? parent, holds⟩

theorem LeadsBelow.of_child {n c : Node t} {good : Node t → Prop} {path : Path}
    (parent : c.parent? = some n) (further : c.LeadsBelow good path) : n.LeadsBelow good path := by
  obtain ⟨m, at_m, above, holds⟩ := further
  exact ⟨m, at_m, ancestors_of_child parent above, holds⟩

/-- The node is a wanted one, by the label of its parent and its own. -/
def Meets (wanted : Label → Label → Bool) (m : Node t) : Prop :=
  ∃ p : Node t, m.parent? = some p ∧ wanted p.label m.label = true

section Forward

variable {anchor : Nat} {wanted : Label → Label → Bool}

theorem firstAfterAmong_found {n : Node t} {i : Nat} {rest : List Tree} {path : Path}
    (left : n.subtree.children.drop i = rest)
    (deeper : ∀ c : Node t, c.parent? = some n → ∀ path,
      c.subtree.firstAfter anchor wanted c.path = some path →
        c.LeadsBelow (fun m => m.Meets wanted ∧ anchor < m.span.start) path)
    (found : Tree.firstAfterAmong anchor wanted n.label n.path i rest = some path) :
    n.LeadsBelow (fun m => m.Meets wanted ∧ anchor < m.span.start) path := by
  induction rest generalizing i with
  | nil => cases found
  | cons s others ih =>
    obtain ⟨c, at_c, same, tail⟩ := exists_child_of_drop left
    have parent : c.parent? = some n := parent?_eq_some_iff.mpr ⟨i, at_c⟩
    have label_c : c.label = s.label := by rw [label, same]
    have span_c : c.span = s.span := by rw [span, label_c]; rfl
    rw [Tree.firstAfterAmong] at found
    split at found
    · exact ih tail found
    · split at found
      · rename_i hit
        simp only [Bool.and_eq_true, decide_eq_true_eq] at hit
        cases found
        rw [← at_c]
        exact leadsBelow_child parent ⟨⟨n, parent, label_c ▸ hit.2⟩, span_c ▸ hit.1⟩
      · rw [← at_c, ← same] at found
        split at found
        · rename_i deep inner
          cases found
          exact (deeper c parent _ inner).of_child parent
        · exact ih tail found

theorem firstAfter_found (n : Node t) {path : Path}
    (found : n.subtree.firstAfter anchor wanted n.path = some path) :
    n.LeadsBelow (fun m => m.Meets wanted ∧ anchor < m.span.start) path := by
  rw [Tree.firstAfter_eq] at found
  exact firstAfterAmong_found rfl (fun c parent _ inner => firstAfter_found c inner) found
termination_by sizeOf n.subtree
decreasing_by exact sizeOf_subtree_lt parent

end Forward

section Backward

variable {anchor : Nat} {wanted : Label → Label → Bool}

theorem lastBeforeAmong_found {n : Node t} {i : Nat} {rest : List Tree} {hit : Hit}
    (left : n.subtree.children.drop i = rest)
    (deeper : ∀ c : Node t, c.parent? = some n → ∀ hit,
      c.subtree.lastBefore anchor wanted c.path = some hit →
        c.LeadsBelow (fun m => m.Meets wanted ∧ m.span.start < anchor) hit.path)
    (found : Tree.lastBeforeAmong anchor wanted n.label n.path i rest = some hit) :
    n.LeadsBelow (fun m => m.Meets wanted ∧ m.span.start < anchor) hit.path := by
  induction rest generalizing i with
  | nil => cases found
  | cons s others ih =>
    obtain ⟨c, at_c, same, tail⟩ := exists_child_of_drop left
    have parent : c.parent? = some n := parent?_eq_some_iff.mpr ⟨i, at_c⟩
    have label_c : c.label = s.label := by rw [label, same]
    have span_c : c.span = s.span := by rw [span, label_c]; rfl
    rw [Tree.lastBeforeAmong] at found
    split at found
    · rename_i later beyond
      cases found
      exact ih tail beyond
    · split at found
      · cases found
      · rename_i early
        have own : ∀ hit, (if wanted n.label s.label then some (Hit.mk (i :: n.path) s.span)
            else none) = some hit →
              n.LeadsBelow (fun m => m.Meets wanted ∧ m.span.start < anchor) hit.path := by
          intro hit at_hit
          split at at_hit
          · rename_i match_c
            cases at_hit
            rw [← at_c]
            refine leadsBelow_child parent ⟨⟨n, parent, label_c ▸ match_c⟩, ?_⟩
            rw [span_c]
            omega
          · cases at_hit
        have below_c : s.lastBefore anchor wanted (i :: n.path) =
            c.subtree.lastBefore anchor wanted c.path := by rw [same, at_c]
        dsimp only at found
        rw [below_c] at found
        generalize (if wanted n.label s.label then some (Hit.mk (i :: n.path) s.span) else none) =
          candidate at found own
        cases deep : c.subtree.lastBefore anchor wanted c.path with
        | none =>
          rw [deep] at found
          exact own hit found
        | some inner =>
          rw [deep] at found
          dsimp only at found
          split at found
          · exact own hit found
          · cases found
            exact (deeper c parent _ deep).of_child parent

theorem lastBefore_found (n : Node t) {hit : Hit}
    (found : n.subtree.lastBefore anchor wanted n.path = some hit) :
    n.LeadsBelow (fun m => m.Meets wanted ∧ m.span.start < anchor) hit.path := by
  rw [Tree.lastBefore_eq] at found
  exact lastBeforeAmong_found rfl (fun c parent _ inner => lastBefore_found c inner) found
termination_by sizeOf n.subtree
decreasing_by exact sizeOf_subtree_lt parent

end Backward

section Shrinking

variable {selection : Span} {qualifies : Label → Bool}

/-- The node lies inside the selection, holds something and leaves part of the selection. -/
structure Inside (selection : Span) (m : Node t) : Prop where
  covered : selection.covers m.span = true
  partly : m.span ≠ selection
  held : m.span.isEmpty = false

theorem largestAmong_found {n : Node t} {i : Nat} {rest : List Tree} {best : Option Hit}
    {good : Hit → Prop} (left : n.subtree.children.drop i = rest)
    (fits : ∀ c : Node t, n ∈ c.ancestors → Inside selection c → qualifies c.label = true →
      good ⟨c.path, c.span⟩)
    (deeper : ∀ c : Node t, c.parent? = some n → ∀ best : Option Hit, (∀ hit ∈ best, good hit) →
      ∀ hit ∈ c.subtree.largestWithin selection qualifies c.path best, good hit)
    (before : ∀ hit ∈ best, good hit) :
    ∀ hit ∈ Tree.largestAmong selection qualifies n.path i best rest, good hit := by
  induction rest generalizing i best with
  | nil => exact before
  | cons s others ih =>
    obtain ⟨c, at_c, same, tail⟩ := exists_child_of_drop left
    have parent : c.parent? = some n := parent?_eq_some_iff.mpr ⟨i, at_c⟩
    have label_c : c.label = s.label := by rw [label, same]
    have span_c : c.span = s.span := by rw [span, label_c]; rfl
    rw [Tree.largestAmong, ← label_c, ← span_c, ← at_c, ← same]
    split
    · rename_i cover
      refine ih tail (deeper c parent _ ?_)
      intro hit member
      split at member
      · rename_i better
        simp only [Bool.and_eq_true, bne_iff_ne, ne_eq, Bool.not_eq_true'] at better
        obtain ⟨⟨⟨partly, held⟩, qualified⟩, _⟩ := better
        cases member
        exact fits c (mem_ancestors_of_parent? parent) ⟨cover, partly, held⟩ qualified
      · exact before hit member
    · exact ih tail before

theorem largestWithin_found (n : Node t) {best : Option Hit} {good : Hit → Prop}
    (fits : ∀ c : Node t, n ∈ c.ancestors → Inside selection c → qualifies c.label = true →
      good ⟨c.path, c.span⟩)
    (before : ∀ hit ∈ best, good hit) :
    ∀ hit ∈ n.subtree.largestWithin selection qualifies n.path best, good hit := by
  rw [Tree.largestWithin_eq]
  refine largestAmong_found rfl fits (fun c parent best before => ?_) before
  refine largestWithin_found c (fun d above inside qualified => fits d ?_ inside qualified) before
  exact ancestors_of_child parent above
termination_by sizeOf n.subtree
decreasing_by exact sizeOf_subtree_lt parent

end Shrinking

end Node

namespace Lens

variable {t : Tree} (lens : Lens)

theorem meets_belongs {category : Category} {m : Node t}
    (met : m.Meets fun above label =>
      lens.classifier.belongs lens.view category (some above) label) :
    lens.belongs category m = true := by
  obtain ⟨p, parent, holds⟩ := met
  rw [belongs, parent]
  exact holds

/-- A forward jump goes to a node of the category below `n` that starts after the current
one. -/
theorem jump_forward_spec {n current m : Node t} {category : Category}
    (found : lens.jump n current category .forward = some m) :
    n ∈ m.ancestors ∧ lens.belongs category m = true ∧ current.span.start < m.span.start := by
  obtain ⟨path, first, at_m⟩ := Option.bind_eq_some_iff.mp found
  obtain ⟨target, rfl, above, met, after⟩ := Node.firstAfter_found n first
  rw [Tree.node?_path, Option.some.injEq] at at_m
  subst at_m
  exact ⟨above, lens.meets_belongs met, after⟩

/-- A backward jump goes to a node of the category below `n` that starts before the current
one. -/
theorem jump_backward_spec {n current m : Node t} {category : Category}
    (found : lens.jump n current category .backward = some m) :
    n ∈ m.ancestors ∧ lens.belongs category m = true ∧ m.span.start < current.span.start := by
  obtain ⟨hit, last, at_m⟩ := Option.bind_eq_some_iff.mp found
  obtain ⟨target, at_hit, above, met, before⟩ := Node.lastBefore_found n last
  rw [← at_hit, Tree.node?_path, Option.some.injEq] at at_m
  subst at_m
  exact ⟨above, lens.meets_belongs met, before⟩

theorem shrink_spec {n m : Node t} {selection : Span} (found : lens.shrink n selection = some m) :
    n.covering selection ∈ m.ancestors ∧ lens.isSignificant m = true ∧ m.Inside selection := by
  unfold shrink at found
  split at found
  · cases found
  · obtain ⟨hit, largest, at_m⟩ := Option.bind_eq_some_iff.mp found
    have sound : ∀ hit ∈ (n.covering selection).subtree.largestWithin selection
        (lens.classifier.isSignificant lens.view) (n.covering selection).path none,
        t.node? hit.path = some m → n.covering selection ∈ m.ancestors ∧
          lens.isSignificant m = true ∧ m.Inside selection := by
      refine Node.largestWithin_found _ ?_ (by simp)
      intro c above inside qualified at_c
      rw [Tree.node?_path, Option.some.injEq] at at_c
      subst at_c
      exact ⟨above, qualified, inside⟩
    exact sound hit largest at_m

end Lens

end TreeNav
