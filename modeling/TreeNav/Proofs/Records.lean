import TreeNav.Proofs.Building
import TreeNav.Proofs.Siblings

/-!
Records and nodes. The tree that an arena describes has one node for each record; going from a
record to its parent, its children or its siblings is going so from the node. The index that a
record carries is its place in the list of its parent, so the siblings can be found by the
index or by searching the list.
-/
namespace TreeNav

namespace Node

variable {t : Tree} {n p : Node t} {k : Nat}

theorem next?_of_path (at_n : n.path = k :: p.path) : n.next? = p.child? (k + 1) := by
  obtain ⟨path, valid⟩ := n
  cases at_n
  rfl

theorem prev?_of_path (at_n : n.path = k :: p.path) :
    n.prev? = if k = 0 then none else p.child? (k - 1) := by
  obtain ⟨path, valid⟩ := n
  cases at_n
  cases k <;> rfl

end Node

namespace Arena

/-- The number of the record at a place. -/
def follow (a : Arena) : Path → Option Nat
  | [] => some 0
  | k :: up => (a.follow up).bind fun id => a.child? id k

variable {a : Arena}

theorem child?_eq_some_iff {id k c : Nat} :
    a.child? id k = some c ↔ ∃ r, a.node? id = some r ∧ r.children[k]? = some c := by
  rw [child?, Option.bind_eq_some_iff]

theorem lt_size_of_node? {id : Nat} {r : ArenaNode} (found : a.node? id = some r) :
    id < a.size :=
  (Array.getElem?_eq_some_iff.mp found).1

theorem parent?_eq_storedPlace? (id : Nat) : a.parent? id = (a.storedPlace? id).map Prod.fst := by
  cases found : a.node? id with
  | none => simp [parent?, storedPlace?, found]
  | some r => cases parent : r.parent <;> simp [parent?, storedPlace?, found, parent]

section Linked

variable (linked : Linked a.nodes)
include linked

/-- The first place in the parent's list at which a record stands is the one it carries. -/
theorem storedPlace?_eq_searchedPlace? (id : Nat) : a.storedPlace? id = a.searchedPlace? id := by
  cases found : a.node? id with
  | none => simp [storedPlace?, searchedPlace?, parent?, found]
  | some r =>
    cases parent : r.parent with
    | none => simp [storedPlace?, searchedPlace?, parent?, found, parent]
    | some p =>
      obtain ⟨_, up, at_p, listed⟩ := linked.above id r p found parent
      obtain ⟨inside, here⟩ := List.getElem?_eq_some_iff.mp listed
      have place : up.children.findIdx? (· == id) = some r.index := by
        rw [List.findIdx?_eq_some_iff_getElem]
        refine ⟨inside, by simp [here], ?_⟩
        intro j less
        have order := List.pairwise_iff_getElem.mp (linked.ascending p up at_p) j r.index
          (Nat.lt_trans less inside) inside less
        rw [here] at order
        simp only [beq_iff_eq]
        omega
      have at_p' : a.node? p = some up := at_p
      simp [storedPlace?, searchedPlace?, parent?, found, parent, at_p', place]

theorem next?_eq_nextBySearch? (id : Nat) : a.next? id = a.nextBySearch? id := by
  rw [next?, nextBySearch?, storedPlace?_eq_searchedPlace? linked]

theorem prev?_eq_prevBySearch? (id : Nat) : a.prev? id = a.prevBySearch? id := by
  rw [prev?, prevBySearch?, storedPlace?_eq_searchedPlace? linked]

/-- A step down leads to a record that knows where it came from. -/
theorem node?_of_child? {id k c : Nat} (listed : a.child? id k = some c) :
    ∃ r, a.node? c = some r ∧ r.parent = some id ∧ r.index = k ∧ id < c := by
  obtain ⟨up, at_up, listed⟩ := child?_eq_some_iff.mp listed
  obtain ⟨r, at_c, parent, index⟩ := linked.below id up k c at_up listed
  exact ⟨r, at_c, parent, index, (linked.above c r id at_c parent).1⟩

/-- A place leads to a record, and no place is deeper than the number of its record. -/
theorem node?_of_follow {p : Path} {id : Nat} (leads : a.follow p = some id) :
    (∃ r, a.node? id = some r) ∧ p.length ≤ id := by
  induction p generalizing id with
  | nil =>
    cases leads
    exact ⟨⟨_, Array.getElem?_eq_getElem a.rooted⟩, Nat.le_refl 0⟩
  | cons k up ih =>
    obtain ⟨above, leads', listed⟩ := Option.bind_eq_some_iff.mp leads
    obtain ⟨r, at_id, _, _, less⟩ := node?_of_child? linked listed
    have depth := (ih leads').2
    refine ⟨⟨r, at_id⟩, ?_⟩
    rw [List.length_cons]
    omega

/-- Two places lead to different records. -/
theorem follow_injective {p q : Path} {id : Nat} (left : a.follow p = some id)
    (right : a.follow q = some id) : p = q := by
  have top : ∀ (k : Nat) (up : Path), a.follow (k :: up) ≠ some 0 := by
    intro k up leads
    obtain ⟨above, _, listed⟩ := Option.bind_eq_some_iff.mp leads
    obtain ⟨_, _, _, _, less⟩ := node?_of_child? linked listed
    omega
  induction p generalizing q id with
  | nil =>
    cases left
    cases q with
    | nil => rfl
    | cons k up => exact absurd right (top k up)
  | cons k up ih =>
    cases q with
    | nil =>
      cases right
      exact absurd left (top k up)
    | cons k' up' =>
      obtain ⟨above, leads, listed⟩ := Option.bind_eq_some_iff.mp left
      obtain ⟨above', leads', listed'⟩ := Option.bind_eq_some_iff.mp right
      obtain ⟨r, at_id, parent, rfl, _⟩ := node?_of_child? linked listed
      obtain ⟨r', at_id', parent', rfl, _⟩ := node?_of_child? linked listed'
      rw [at_id, Option.some.injEq] at at_id'
      subst at_id'
      rw [parent, Option.some.injEq] at parent'
      subst parent'
      rw [ih leads leads']

/-- Some place leads to every record: climbing by the parents gives it. -/
theorem exists_follow {id : Nat} (inside : id < a.size) : ∃ p, a.follow p = some id := by
  have found : a.node? id = some a.nodes[id] := Array.getElem?_eq_getElem inside
  cases parent : a.nodes[id].parent with
  | none =>
    rw [(linked.top id _ found).mp parent]
    exact ⟨[], rfl⟩
  | some above =>
    obtain ⟨less, up, at_up, listed⟩ := linked.above id _ above found parent
    have climbed : ∃ p, a.follow p = some above := exists_follow (Nat.lt_trans less inside)
    obtain ⟨p, leads⟩ := climbed
    refine ⟨a.nodes[id].index :: p, ?_⟩
    rw [follow, leads, Option.bind_some, child?_eq_some_iff]
    exact ⟨up, at_up, listed⟩
termination_by id

theorem getElem?_filterMap_node? {id : Nat} {r : ArenaNode} (found : a.node? id = some r)
    (k : Nat) : (r.children.filterMap a.node?)[k]? = r.children[k]?.bind a.node? := by
  have valid : ∀ c ∈ r.children, (a.node? c).isSome := by
    intro c member
    obtain ⟨k, listed⟩ := List.mem_iff_getElem?.mp member
    obtain ⟨child, at_c, _⟩ := linked.below id r k c found listed
    exact Option.isSome_of_eq_some at_c
  generalize r.children = children at valid
  induction children generalizing k with
  | nil => rfl
  | cons c rest ih =>
    obtain ⟨child, at_c⟩ := Option.isSome_iff_exists.mp (valid c List.mem_cons_self)
    rw [List.filterMap_cons_some at_c]
    cases k with
    | zero => exact at_c.symm
    | succ k => exact ih k fun c member => valid c (List.mem_cons_of_mem _ member)

/-- What stands at a place of the tree is what the record there describes. No place is too deep
for the tree to be followed to it. -/
theorem at?_toTree (p : Path) : a.toTree.at? p =
    ((a.follow p).bind a.node?).map (a.treeOf (a.size - p.length)) := by
  induction p with
  | nil =>
    have rooted := a.rooted
    have found : a.node? 0 = some a.nodes[0] := Array.getElem?_eq_getElem rooted
    simp [follow, found, toTree]
  | cons k up ih =>
    rw [Tree.at?_cons, ih, follow]
    cases leads : a.follow up with
    | none => rfl
    | some id =>
      obtain ⟨⟨r, found⟩, depth⟩ := node?_of_follow linked leads
      have inside := lt_size_of_node? found
      have fuel : a.size - up.length = (a.size - (up.length + 1)) + 1 := by omega
      simp only [Option.bind_some, found, Option.map_some, fuel, treeOf, Tree.children_node,
        List.getElem?_map, getElem?_filterMap_node? linked found, child?, List.length_cons]

theorem follow_isSome (n : Node a.toTree) : (a.follow n.path).isSome := by
  have valid := n.valid
  rw [at?_toTree linked, Option.isSome_map] at valid
  exact Option.isSome_of_isSome_bind valid

/-- The number of the record that describes a node. -/
def number (n : Node a.toTree) : Fin a.size :=
  ⟨(a.follow n.path).get (follow_isSome linked n), by
    obtain ⟨⟨r, found⟩, _⟩ := node?_of_follow linked (Option.some_get (follow_isSome linked n)).symm
    exact lt_size_of_node? found⟩

theorem follow_path (n : Node a.toTree) : a.follow n.path = some (number linked n : Nat) :=
  (Option.some_get (follow_isSome linked n)).symm

theorem exists_node_of_follow {p : Path} {id : Nat} (leads : a.follow p = some id) :
    ∃ n : Node a.toTree, n.path = p := by
  obtain ⟨⟨r, found⟩, _⟩ := node?_of_follow linked leads
  have valid : (a.toTree.at? p).isSome := by
    rw [at?_toTree linked, leads, Option.bind_some, found]
    rfl
  exact ⟨⟨p, valid⟩, rfl⟩

theorem number_bijective : Function.Bijective (number linked) := by
  constructor
  · intro n m same
    have left := follow_path linked n
    rw [same] at left
    exact Node.ext (follow_injective linked left (follow_path linked m))
  · rintro ⟨id, inside⟩
    obtain ⟨p, leads⟩ := exists_follow linked inside
    obtain ⟨n, rfl⟩ := exists_node_of_follow linked leads
    have same := follow_path linked n
    rw [leads, Option.some.injEq] at same
    exact ⟨n, Fin.ext same.symm⟩

theorem label_number (n : Node a.toTree) :
    (a.node? (number linked n)).map (fun r => r.label) = some n.label := by
  obtain ⟨⟨r, found⟩, _⟩ := node?_of_follow linked (follow_path linked n)
  have here := n.at?_path
  rw [at?_toTree linked, follow_path linked, Option.bind_some, found, Option.map_some,
    Option.some.injEq] at here
  rw [found, Option.map_some, Node.label, ← here]
  cases a.size - n.path.length <;> rfl

theorem child?_number (n : Node a.toTree) (k : Nat) :
    a.child? (number linked n) k = (n.child? k).map fun m => (number linked m : Nat) := by
  have down : a.follow (k :: n.path) = a.child? (number linked n) k := by
    rw [follow, follow_path linked, Option.bind_some]
  rw [← down]
  cases inside : n.child? k with
  | some c =>
    rw [← Node.child?_eq_some_iff.mp inside, follow_path linked]
    rfl
  | none =>
    cases leads : a.follow (k :: n.path) with
    | none => rfl
    | some id =>
      obtain ⟨c, at_c⟩ := exists_node_of_follow linked leads
      rw [Node.child?_eq_some_iff.mpr at_c] at inside
      cases inside

/-- A record carries the parent and the index of its node. -/
theorem storedPlace?_number {n p : Node a.toTree} {k : Nat} (at_n : n.path = k :: p.path) :
    a.storedPlace? (number linked n) = some ((number linked p : Nat), k) := by
  have listed := child?_number linked p k
  rw [Node.child?_eq_some_iff.mpr at_n] at listed
  obtain ⟨r, found, parent, index, _⟩ := node?_of_child? linked listed
  simp [storedPlace?, found, parent, index]

theorem storedPlace?_root : a.storedPlace? (number linked (Node.root a.toTree)) = none := by
  have here := follow_path linked (Node.root a.toTree)
  cases found : a.node? (number linked (Node.root a.toTree)) with
  | none => simp [storedPlace?, found]
  | some r =>
    have top := (linked.top _ r found).mpr (Option.some.inj here).symm
    simp [storedPlace?, found, top]

/-- A record is the first one and has no place in a list, or it carries the place of its node. -/
theorem storedPlace?_cases (n : Node a.toTree) :
    (n = Node.root a.toTree ∧ a.storedPlace? (number linked n) = none) ∨
    ∃ (p : Node a.toTree) (k : Nat), n.path = k :: p.path ∧ n.parent? = some p ∧
      a.storedPlace? (number linked n) = some ((number linked p : Nat), k) := by
  by_cases top : n = Node.root a.toTree
  · subst top
    exact .inl ⟨rfl, storedPlace?_root linked⟩
  · obtain ⟨p, parent⟩ := Node.parent?_isSome top
    obtain ⟨k, at_n⟩ := Node.parent?_eq_some_iff.mp parent
    exact .inr ⟨p, k, at_n, parent, storedPlace?_number linked at_n⟩

theorem parent?_number (n : Node a.toTree) :
    a.parent? (number linked n) = n.parent?.map fun m => (number linked m : Nat) := by
  rw [parent?_eq_storedPlace?]
  obtain ⟨rfl, top⟩ | ⟨p, k, at_n, parent, place⟩ := storedPlace?_cases linked n
  · rw [top]
    rfl
  · rw [place, parent]
    rfl

theorem next?_number (n : Node a.toTree) :
    a.next? (number linked n) = n.next?.map fun m => (number linked m : Nat) := by
  rw [next?]
  obtain ⟨rfl, top⟩ | ⟨p, k, at_n, _, place⟩ := storedPlace?_cases linked n
  · rw [top]
    rfl
  · rw [place, Node.next?_of_path at_n]
    exact child?_number linked p (k + 1)

theorem prev?_number (n : Node a.toTree) :
    a.prev? (number linked n) = n.prev?.map fun m => (number linked m : Nat) := by
  rw [prev?]
  obtain ⟨rfl, top⟩ | ⟨p, k, at_n, _, place⟩ := storedPlace?_cases linked n
  · rw [top]
    rfl
  · rw [place, Option.bind_some, childBefore?, Node.prev?_of_path at_n]
    split
    · rfl
    · exact child?_number linked p (k - 1)

end Linked

end Arena

end TreeNav
