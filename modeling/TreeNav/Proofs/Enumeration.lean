import TreeNav.Tree.Node
import Mathlib.Data.Fintype.Card
import Mathlib.Data.Fintype.OfMap

/-!
The list of all nodes is complete and no longer than the size of the tree, so a tree has
finitely many nodes and statements about all of them can be checked. Lists of nodes come in an
order of their own, and a search through one finds what is first in that order.
-/
namespace TreeNav

section Order

variable {α : Type} {r : α → α → Prop} {listed : List α} {sought : α → Bool} {m q : α}

/-- What a search finds in an ordered list comes before all else that is sought in it. -/
theorem rel_of_find?_of_pairwise (order : listed.Pairwise r) (found : listed.find? sought = some m)
    (member : q ∈ listed) (met : sought q = true) : q = m ∨ r m q := by
  obtain ⟨_, front, rest, split, skipped⟩ := List.find?_eq_some_iff_append.mp found
  rw [split] at member order
  rcases List.mem_append.mp member with early | late
  · have passed := skipped q early
    simp [met] at passed
  · rcases List.mem_cons.mp late with same | later
    · exact .inl same
    · exact .inr (List.rel_of_pairwise_cons (List.pairwise_append.mp order).2.1 later)

theorem find?_eq_some_iff_of_pairwise (asymm : ∀ a b, r a b → ¬ r b a)
    (order : listed.Pairwise r) : listed.find? sought = some m ↔
      m ∈ listed ∧ sought m = true ∧ ∀ q ∈ listed, sought q = true → q = m ∨ r m q := by
  constructor
  · intro found
    exact ⟨List.mem_of_find?_eq_some found, List.find?_some found,
      fun q member met => rel_of_find?_of_pairwise order found member met⟩
  · rintro ⟨member, met, first⟩
    cases found : listed.find? sought with
    | none => exact absurd met (List.find?_eq_none.mp found m member)
    | some v =>
      rcases rel_of_find?_of_pairwise order found member met with same | after
      · rw [same]
      · rcases first v (List.mem_of_find?_eq_some found) (List.find?_some found) with same | before
        · rw [same]
        · exact absurd before (asymm v m after)

end Order

namespace Tree

mutual

theorem mem_pathsFrom (here inner : Path) (s : Tree) (valid : (s.at? inner).isSome) :
    inner ++ here ∈ s.pathsFrom here := by
  match s with
  | .node label children =>
    rw [pathsFrom, List.mem_cons]
    rcases List.eq_nil_or_concat inner with rfl | ⟨rest, k, rfl⟩
    · exact .inl rfl
    · have split : (Tree.node label children).at? (rest ++ [k]) =
          children[k]?.bind fun c => c.at? rest := by
        rw [at?_append]
        rfl
      rw [List.concat_eq_append, split] at valid
      refine .inr ?_
      simpa using mem_pathsAmong here rest 0 k children valid

theorem mem_pathsAmong (here inner : Path) (i k : Nat) (trees : List Tree)
    (valid : (trees[k]?.bind fun c => c.at? inner).isSome) :
    inner ++ (i + k) :: here ∈ pathsAmong here i trees := by
  match trees, k with
  | [], _ => simp at valid
  | c :: cs, 0 =>
    rw [pathsAmong, List.mem_append]
    exact .inl (mem_pathsFrom (i :: here) inner c valid)
  | c :: cs, k + 1 =>
    rw [pathsAmong, List.mem_append]
    have later := mem_pathsAmong here inner (i + 1) k cs valid
    rw [Nat.add_right_comm] at later
    exact .inr later

end

mutual

theorem length_pathsFrom (here : Path) (s : Tree) : (s.pathsFrom here).length = s.size := by
  match s with
  | .node label children =>
    rw [pathsFrom, size, List.length_cons, length_pathsAmong]

theorem length_pathsAmong (here : Path) (i : Nat) (trees : List Tree) :
    (pathsAmong here i trees).length = sizeAll trees := by
  match trees with
  | [] => rfl
  | c :: cs =>
    rw [pathsAmong, sizeAll, List.length_append, length_pathsFrom, length_pathsAmong]

end

theorem mem_nodes {t : Tree} (n : Node t) : n ∈ t.nodes := by
  refine List.mem_filterMap.mpr ⟨n.path, ?_, ?_⟩
  · simpa [paths] using mem_pathsFrom [] n.path t n.valid
  · rw [node?, dif_pos n.valid]

theorem length_nodes_le (t : Tree) : t.nodes.length ≤ t.size := by
  rw [← length_pathsFrom [] t]
  exact List.length_filterMap_le ..

instance {t : Tree} : Fintype (Node t) := Fintype.ofList t.nodes mem_nodes

theorem card_node_le (t : Tree) : Fintype.card (Node t) ≤ t.size :=
  Nat.le_trans (Multiset.toFinset_card_le _) t.length_nodes_le

end Tree

end TreeNav
