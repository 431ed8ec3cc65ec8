import TreeNav.Proofs.Enumeration
import TreeNav.Proofs.Nearest
import Mathlib.Data.List.MinMax

/-!
The list of all nodes is in pre-order: a node stands before everything below it, and
everything below an earlier child before everything below a later one. So the first of the
largest nodes in the list is the one that no other outranks.
-/
namespace TreeNav

namespace Tree

/-- The path `a` comes before `b` in pre-order. -/
def PathLeads (a b : Path) : Prop :=
  a <:+ b ∨ ∃ up i j, i < j ∧ (i :: up) <:+ a ∧ (j :: up) <:+ b

mutual

theorem suffix_of_mem_pathsFrom (here path : Path) (s : Tree) (member : path ∈ s.pathsFrom here) :
    here <:+ path := by
  match s with
  | .node label children =>
    rw [pathsFrom, List.mem_cons] at member
    rcases member with rfl | inner
    · exact List.suffix_refl _
    · obtain ⟨j, _, part⟩ := suffix_of_mem_pathsAmong here path 0 children inner
      exact (List.suffix_cons j here).trans part

theorem suffix_of_mem_pathsAmong (here path : Path) (i : Nat) (trees : List Tree)
    (member : path ∈ pathsAmong here i trees) : ∃ j, i ≤ j ∧ (j :: here) <:+ path := by
  match trees with
  | [] => cases member
  | c :: cs =>
    rw [pathsAmong, List.mem_append] at member
    rcases member with first | later
    · exact ⟨i, Nat.le_refl i, suffix_of_mem_pathsFrom (i :: here) path c first⟩
    · obtain ⟨j, le, part⟩ := suffix_of_mem_pathsAmong here path (i + 1) cs later
      exact ⟨j, by omega, part⟩

end

mutual

theorem pairwise_pathsFrom (here : Path) (s : Tree) :
    (s.pathsFrom here).Pairwise fun a b => PathLeads a b ∧ a ≠ b := by
  match s with
  | .node label children =>
    rw [pathsFrom, List.pairwise_cons]
    refine ⟨?_, pairwise_pathsAmong here 0 children⟩
    intro path member
    obtain ⟨j, _, part⟩ := suffix_of_mem_pathsAmong here path 0 children member
    refine ⟨.inl ((List.suffix_cons j here).trans part), ?_⟩
    rintro rfl
    have longer := part.length_le
    rw [List.length_cons] at longer
    omega

theorem pairwise_pathsAmong (here : Path) (i : Nat) (trees : List Tree) :
    (pathsAmong here i trees).Pairwise fun a b => PathLeads a b ∧ a ≠ b := by
  match trees with
  | [] => exact List.Pairwise.nil
  | c :: cs =>
    rw [pathsAmong, List.pairwise_append]
    refine ⟨pairwise_pathsFrom (i :: here) c, pairwise_pathsAmong here (i + 1) cs, ?_⟩
    intro a first b later
    have left := suffix_of_mem_pathsFrom (i :: here) a c first
    obtain ⟨j, le, right⟩ := suffix_of_mem_pathsAmong here b (i + 1) cs later
    refine ⟨.inr ⟨here, i, j, by omega, left, right⟩, ?_⟩
    rintro rfl
    have same := Path.eq_of_suffix left right (by simp)
    simp only [List.cons.injEq, and_true] at same
    omega

end

theorem path_of_node? {t : Tree} {path : Path} {n : Node t} (found : t.node? path = some n) :
    n.path = path := by
  unfold node? at found
  split at found
  · cases found
    rfl
  · cases found

end Tree

namespace Node

variable {t : Tree}

theorem Leads.antisymm {a b : Node t} (first : a.Leads b) (second : b.Leads a) : a = b := by
  rcases first with above | before
  · rcases second with under | after
    · exact mem_lineage_antisymm above under
    · exact absurd above after.not_mem_lineage.2
  · rcases second with under | after
    · exact absurd under before.not_mem_lineage.2
    · exact absurd after before.asymm

/-- The list of all nodes is in pre-order, and no node is listed twice. -/
theorem pairwise_nodes (t : Tree) : t.nodes.Pairwise fun a b => a.Leads b ∧ a ≠ b := by
  refine List.pairwise_filterMap.mpr ((Tree.pairwise_pathsFrom [] t).imp ?_)
  rintro path other ⟨order, different⟩ a at_a b at_b
  obtain rfl := Tree.path_of_node? at_a
  obtain rfl := Tree.path_of_node? at_b
  refine ⟨order.imp_left mem_lineage_iff.mpr, ?_⟩
  rintro rfl
  exact different rfl

theorem Leads.total (a b : Node t) : a.Leads b ∨ b.Leads a := by
  rcases lineage_or_before a b with above | under | before | after
  · exact .inl (.inl above)
  · exact .inr (.inl under)
  · exact .inl (.inr before)
  · exact .inr (.inr after)

/-- In a list that is in pre-order the nodes that come no later are those with no greater
index. -/
theorem leads_iff_idxOf_le {listed : List (Node t)} {a b : Node t}
    (order : listed.Pairwise fun a b => a.Leads b ∧ a ≠ b) (member : a ∈ listed)
    (member' : b ∈ listed) : a.Leads b ↔ listed.idxOf a ≤ listed.idxOf b := by
  have forward : ∀ {a b : Node t}, a ∈ listed → b ∈ listed → a.Leads b →
      listed.idxOf a ≤ listed.idxOf b := by
    intro a b member member' leads
    by_contra! later
    obtain ⟨back, different⟩ := List.pairwise_iff_getElem.mp order _ _
      (List.idxOf_lt_length_of_mem member') (List.idxOf_lt_length_of_mem member) later
    rw [List.getElem_idxOf, List.getElem_idxOf] at back different
    exact different (back.antisymm leads)
  refine ⟨forward member member', fun upto => ?_⟩
  rcases Leads.total a b with leads | back
  · exact leads
  · have same : a = b :=
      (List.idxOf_inj member).mp (Nat.le_antisymm upto (forward member' member back))
    exact same ▸ .inl a.self_mem_lineage

/-- The node `a` stands before `b` in the list of all nodes. -/
def precedes (a b : Node t) : Bool := t.nodes.idxOf a < t.nodes.idxOf b

theorem precedes_iff {a b : Node t} : a.precedes b = true ↔ a.Leads b ∧ a ≠ b := by
  have leads_iff := leads_iff_idxOf_le (pairwise_nodes t) (Tree.mem_nodes a) (Tree.mem_nodes b)
  have same_iff := List.idxOf_inj (l := t.nodes) (y := b) (Tree.mem_nodes a)
  rw [precedes, decide_eq_true_eq, leads_iff, ne_eq, ← same_iff]
  omega

section Ends

variable {sought : Node t → Bool}

theorem leads_iff_eq_or {a b : Node t} : a.Leads b ↔ a = b ∨ a.Leads b ∧ a ≠ b := by
  by_cases same : a = b
  · simp [same, Leads, self_mem_lineage]
  · simp [same]

theorem not_leads_of_strict {a b : Node t} (first : a.Leads b ∧ a ≠ b) : ¬ (b.Leads a ∧ b ≠ a) :=
  fun second => first.2 (first.1.antisymm second.1)

/-- A result that comes no later than any node that is sought is the first of these in the list
of all nodes. -/
theorem eq_head?_filter_nodes {result : Option (Node t)}
    (lost : result = none → ∀ q, sought q = false)
    (found : ∀ m, result = some m → sought m = true ∧ ∀ q, sought q = true → m.Leads q) :
    result = (t.nodes.filter sought).head? := by
  cases same : result with
  | none =>
    symm
    simpa [List.filter_eq_nil_iff, Tree.mem_nodes] using lost same
  | some m =>
    symm
    rw [List.head?_filter,
      find?_eq_some_iff_of_pairwise (fun _ _ => not_leads_of_strict) (pairwise_nodes t)]
    simpa only [Tree.mem_nodes, true_and, forall_const, eq_comm (b := m), ← leads_iff_eq_or]
      using found m same

/-- A result that comes no earlier than any node that is sought is the last of these in the list
of all nodes. -/
theorem eq_getLast?_filter_nodes {result : Option (Node t)}
    (lost : result = none → ∀ q, sought q = false)
    (found : ∀ m, result = some m → sought m = true ∧ ∀ q, sought q = true → q.Leads m) :
    result = (t.nodes.filter sought).getLast? := by
  cases same : result with
  | none =>
    symm
    simpa [List.filter_eq_nil_iff, Tree.mem_nodes] using lost same
  | some m =>
    symm
    rw [List.getLast?_filter, find?_eq_some_iff_of_pairwise (fun _ _ => not_leads_of_strict)
      (List.pairwise_reverse.mpr (pairwise_nodes t))]
    simpa only [List.mem_reverse, Tree.mem_nodes, true_and, forall_const, ← leads_iff_eq_or]
      using found m same

end Ends

theorem Leads.trans {a b c : Node t} (first : a.Leads b) (second : b.Leads c) : a.Leads c := by
  simp only [leads_iff_idxOf_le (pairwise_nodes t) (Tree.mem_nodes _) (Tree.mem_nodes _)] at *
  exact Nat.le_trans first second

/-- The node `m` is longer than `q`, or as long and no later in pre-order. -/
def Outranks (m q : Node t) : Prop :=
  q.span.length ≤ m.span.length ∧ (q.span.length = m.span.length → m.Leads q)

theorem Outranks.trans {a b c : Node t} (first : a.Outranks b) (second : b.Outranks c) :
    a.Outranks c := by
  refine ⟨Nat.le_trans second.1 first.1, fun same => ?_⟩
  have upper := first.1
  have lower := second.1
  exact (first.2 (by omega)).trans (second.2 (by omega))

/-- The result is the first of the longest nodes in question; there is none only where no node
is in question. -/
def IsLargest (candidate : Node t → Prop) : Option (Node t) → Prop
  | none => ∀ q, ¬ candidate q
  | some m => candidate m ∧ ∀ q, candidate q → m.Outranks q

/-- The largest of the nodes that are not hidden is the largest of all if each hidden one is
outranked by one that is not. -/
theorem IsLargest.unhidden_iff {candidate hidden : Node t → Bool} {result : Option (Node t)}
    (shown : IsLargest (fun m => (candidate m && !hidden m) = true) result) :
    IsLargest (fun m => candidate m = true) result ↔
      ∀ m, candidate m = true → hidden m = true →
        ∃ v, candidate v = true ∧ hidden v = false ∧ v.Outranks m := by
  simp only [Bool.and_eq_true, Bool.not_eq_true'] at shown
  cases result with
  | none =>
    constructor
    · intro whole m sought
      exact absurd sought (whole m)
    · intro outranked m sought
      by_cases kept : hidden m = false
      · exact shown m ⟨sought, kept⟩
      · obtain ⟨v, sought', kept', _⟩ := outranked m sought (by simpa using kept)
        exact shown v ⟨sought', kept'⟩
  | some v =>
    obtain ⟨⟨chosen, kept⟩, best⟩ := shown
    constructor
    · intro whole m sought _
      exact ⟨v, chosen, kept, whole.2 m sought⟩
    · intro outranked
      refine ⟨chosen, fun m sought => ?_⟩
      by_cases kept' : hidden m = false
      · exact best m ⟨sought, kept'⟩
      · obtain ⟨w, sought', kept', outranks⟩ := outranked m sought (by simpa using kept')
        exact (best w ⟨sought', kept'⟩).trans outranks

theorem isLargest_iff_eq_argmax {candidate : Node t → Bool} {result : Option (Node t)} :
    IsLargest (fun m => candidate m = true) result ↔
      result = (t.nodes.filter candidate).argmax fun m => m.span.length := by
  have order := (pairwise_nodes t).filter candidate
  have listed : ∀ q : Node t, q ∈ t.nodes.filter candidate ↔ candidate q = true := by
    intro q
    simp [Tree.mem_nodes]
  cases result with
  | none =>
    rw [eq_comm, List.argmax_eq_none, List.eq_nil_iff_forall_not_mem]
    simp only [IsLargest, listed]
  | some m =>
    rw [eq_comm, ← Option.mem_def, List.mem_argmax_iff, listed, IsLargest]
    refine and_congr_right fun chosen => ?_
    have index : ∀ q, candidate q = true → (m.Leads q ↔
        (t.nodes.filter candidate).idxOf m ≤ (t.nodes.filter candidate).idxOf q) :=
      fun q sought => leads_iff_idxOf_le order ((listed m).mpr chosen) ((listed q).mpr sought)
    simp only [listed, Outranks]
    constructor
    · intro best
      refine ⟨fun q sought => (best q sought).1, fun q sought upto => ?_⟩
      exact (index q sought).mp ((best q sought).2 (Nat.le_antisymm (best q sought).1 upto))
    · rintro ⟨longest, first⟩ q sought
      exact ⟨longest q sought, fun same => (index q sought).mpr (first q sought same.ge)⟩

end Node

end TreeNav
