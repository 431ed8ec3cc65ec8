/-!
Finite maps from texts, kept as a list of entries in strictly ascending order of
their keys. Texts are ordered by their UTF-8 bytes, which is the order of their
code points. Two maps with the same entries are equal. Left out is removing entries.
-/
namespace TreeNav

/-- The keys of the entries ascend strictly. -/
def Ascending {α : Type} (entries : List (String × α)) : Prop :=
  entries.Pairwise fun a b => a.1 < b.1

/-- A map from texts, listed by ascending key. -/
structure SortedMap (α : Type) where
  entries : List (String × α)
  ascending : Ascending entries

namespace SortedMap

variable {α : Type}

def empty : SortedMap α := ⟨[], List.Pairwise.nil⟩

def isEmpty (m : SortedMap α) : Bool := m.entries.isEmpty

theorem eq_empty {m : SortedMap α} (none : m.isEmpty = true) : m = empty := by
  obtain ⟨entries, ascending⟩ := m
  obtain rfl := List.isEmpty_iff.mp none
  rfl

/-- Puts a value under a key of an ascending list, in place of the one that was there. -/
def put (key : String) (value : α) : List (String × α) → List (String × α)
  | [] => [(key, value)]
  | first :: rest =>
    if key < first.1 then (key, value) :: first :: rest
    else if key = first.1 then (key, value) :: rest
    else first :: put key value rest

theorem mem_put {key : String} {value : α} {entries : List (String × α)} {e : String × α}
    (member : e ∈ put key value entries) : e = (key, value) ∨ e ∈ entries := by
  induction entries with
  | nil => simpa [put] using member
  | cons first rest ih =>
    simp only [put] at member
    split at member
    · simpa using member
    · split at member
      · rcases List.mem_cons.mp member with same | further
        · exact .inl same
        · exact .inr (List.mem_cons_of_mem _ further)
      · rcases List.mem_cons.mp member with same | further
        · exact .inr (same ▸ List.mem_cons_self)
        · exact (ih further).imp_right (List.mem_cons_of_mem _)

theorem ascending_put (key : String) (value : α) {entries : List (String × α)}
    (ascending : Ascending entries) : Ascending (put key value entries) := by
  induction entries with
  | nil => exact List.pairwise_singleton ..
  | cons first rest ih =>
    have ⟨below, tail⟩ := List.pairwise_cons.mp ascending
    simp only [put]
    split
    · rename_i less
      refine List.pairwise_cons.mpr ⟨?_, ascending⟩
      intro e member
      rcases List.mem_cons.mp member with same | further
      · exact same ▸ less
      · exact String.lt_trans less (below e further)
    · split
      · rename_i same
        exact List.pairwise_cons.mpr ⟨fun e member => by simpa [same] using below e member, tail⟩
      · rename_i notLess different
        have greater : first.1 < key := by
          rcases Std.lt_trichotomy key first.1 with less | same | greater
          · exact absurd less notLess
          · exact absurd same different
          · exact greater
        refine List.pairwise_cons.mpr ⟨?_, ih tail⟩
        intro e member
        rcases mem_put member with same | further
        · simpa [same] using greater
        · exact below e further

/-- A key finds what was put under it last. -/
theorem lookup_put_self (key : String) (value : α) (entries : List (String × α)) :
    (put key value entries).lookup key = some value := by
  induction entries with
  | nil => simp [put]
  | cons first rest ih =>
    obtain ⟨own, old⟩ := first
    simp only [put]
    split
    · simp
    · split
      · simp
      · rename_i different
        have miss : (key == own) = false := beq_false_of_ne different
        simp only [List.lookup_cons, miss, ih]

/-- What stands under other keys stays as it is. -/
theorem lookup_put_ne {key other : String} (value : α) (entries : List (String × α))
    (different : other ≠ key) : (put key value entries).lookup other = entries.lookup other := by
  have miss : (other == key) = false := beq_false_of_ne different
  induction entries with
  | nil => simp [put, List.lookup_cons, miss]
  | cons first rest ih =>
    obtain ⟨own, old⟩ := first
    simp only [put]
    split
    · simp only [List.lookup_cons, miss]
    · split
      · rename_i same
        simp only [List.lookup_cons, miss, ← same]
      · simp only [List.lookup_cons, ih]

/-- The value under a key. -/
def get? (m : SortedMap α) (key : String) : Option α := m.entries.lookup key

def insert (m : SortedMap α) (key : String) (value : α) : SortedMap α :=
  ⟨put key value m.entries, ascending_put key value m.ascending⟩

@[simp] theorem get?_insert_self (m : SortedMap α) (key : String) (value : α) :
    (m.insert key value).get? key = some value :=
  lookup_put_self key value m.entries

theorem get?_insert_ne (m : SortedMap α) {key other : String} (value : α)
    (different : other ≠ key) : (m.insert key value).get? other = m.get? other :=
  lookup_put_ne value m.entries different

/-- The map of some entries, of which a later one replaces an earlier of the same key. -/
def ofList (entries : List (String × α)) : SortedMap α :=
  entries.foldl (fun m e => m.insert e.1 e.2) empty

/-- A key past all others goes to the end. -/
theorem put_of_greatest {key : String} (value : α) {entries : List (String × α)}
    (greatest : ∀ e ∈ entries, e.1 < key) : put key value entries = entries ++ [(key, value)] := by
  induction entries with
  | nil => rfl
  | cons first rest ih =>
    have below := greatest first List.mem_cons_self
    have notLess : ¬key < first.1 := String.lt_asymm below
    have different : key ≠ first.1 := fun same => String.lt_irrefl key (by rwa [← same] at below)
    rw [put, if_neg notLess, if_neg different,
      ih fun e member => greatest e (List.mem_cons_of_mem _ member)]
    rfl

theorem foldl_insert {m : SortedMap α} {rest : List (String × α)}
    (ascending : Ascending (m.entries ++ rest)) :
    rest.foldl (fun m e => m.insert e.1 e.2) m = ⟨m.entries ++ rest, ascending⟩ := by
  induction rest generalizing m with
  | nil => simp
  | cons e rest ih =>
    have greatest : ∀ other ∈ m.entries, other.1 < e.1 := fun other member =>
      (List.pairwise_append.mp ascending).2.2 other member e List.mem_cons_self
    have entries : (m.insert e.1 e.2).entries = m.entries ++ [e] := put_of_greatest e.2 greatest
    have shifted : (m.insert e.1 e.2).entries ++ rest = m.entries ++ e :: rest := by
      rw [entries, List.append_assoc, List.singleton_append]
    rw [List.foldl_cons, ih (shifted ▸ ascending)]
    simp only [shifted]

/-- A map is put together again from its entries. -/
theorem ofList_entries (m : SortedMap α) : ofList m.entries = m := by
  have whole : Ascending ((empty : SortedMap α).entries ++ m.entries) := m.ascending
  exact foldl_insert whole

end SortedMap

end TreeNav
