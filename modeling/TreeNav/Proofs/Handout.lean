import TreeNav.Proofs.Siblings
import TreeNav.Tree.Children

/-!
Children handed out from either end. What is left to hand out is a stretch of the children: a call
at the front takes its first child, a call at the back its last one, whatever calls came before. So
however the calls at the two ends are mixed, what they were given and what is left make up the
children.
-/
namespace TreeNav

/-- No child is listed twice. -/
theorem Node.nodup_children {t : Tree} (n : Node t) : n.children.Nodup := by
  refine n.pairwise_children.imp ?_
  intro a b order same
  exact order.asymm (same ▸ order)

namespace Children

variable {t : Tree} {c : Children t}

/-- The children that are left to hand out, in source order. -/
def left (c : Children t) : List (Node t) := (c.owner.children.take c.back).drop c.front

/-- The end of what is left lies among the children. -/
def Sound (c : Children t) : Prop := c.back ≤ c.owner.childCount

theorem sound_of (n : Node t) : (of n).Sound := Nat.le_refl _

theorem left_of (n : Node t) : (of n).left = n.children := by
  rw [left, of, List.drop_zero, ← n.length_children, List.take_length]

theorem length_left (sound : c.Sound) : c.left.length = c.remaining := by
  have inside : c.back ≤ c.owner.children.length := c.owner.length_children ▸ sound
  rw [left, List.length_drop, List.length_take, Nat.min_eq_left inside]
  rfl

theorem left_eq_nil (sound : c.Sound) (met : ¬c.front < c.back) : c.left = [] := by
  rw [← List.length_eq_zero_iff, length_left sound, remaining]
  omega

theorem left_eq_cons (sound : c.Sound) (more : c.front < c.back) :
    ∃ child, c.owner.child? c.front = some child ∧
      c.left = child :: { c with front := c.front + 1 }.left := by
  have inside : c.front < (c.owner.children.take c.back).length := by
    rw [List.length_take, c.owner.length_children]
    exact Nat.lt_min.mpr ⟨more, Nat.lt_of_lt_of_le more sound⟩
  refine ⟨_, ?_, List.drop_eq_getElem_cons inside⟩
  rw [← c.owner.getElem?_children, ← List.getElem?_take_of_lt more, List.getElem?_eq_getElem inside]

theorem left_eq_concat (sound : c.Sound) (more : c.front < c.back) :
    ∃ child, c.owner.child? (c.back - 1) = some child ∧
      c.left = { c with back := c.back - 1 }.left ++ [child] := by
  have inside : c.back - 1 < c.owner.children.length := by
    rw [c.owner.length_children]
    exact Nat.lt_of_lt_of_le (by omega) sound
  have whole : c.owner.children.take c.back =
      c.owner.children.take (c.back - 1) ++ [c.owner.children[c.back - 1]] := by
    rw [List.take_append_getElem, Nat.sub_add_cancel (by omega)]
  refine ⟨c.owner.children[c.back - 1], ?_, ?_⟩
  · rw [← c.owner.getElem?_children, List.getElem?_eq_getElem inside]
  · rw [left, whole, List.drop_append_of_le_length]
    · rfl
    · rw [List.length_take]
      omega

/-- Asks for a child at the end that lies in a direction: at the front for the way forward
through the children, at the back for the way backward. -/
def ask (c : Children t) : Direction → Option (Node t) × Children t
  | .forward => c.next
  | .backward => c.nextBack

/-- What a sequence of calls is answered. -/
def answers (c : Children t) : List Direction → List (Option (Node t))
  | [] => []
  | call :: later => (c.ask call).1 :: (c.ask call).2.answers later

/-- What the calls leave. -/
def after (c : Children t) (calls : List Direction) : Children t :=
  calls.foldl (fun c call => (c.ask call).2) c

/-- The nodes that the calls in a direction were given, in the order of the calls. -/
def handed (c : Children t) (calls : List Direction) (direction : Direction) : List (Node t) :=
  (calls.zip (c.answers calls)).filterMap fun (call, answer) =>
    if call = direction then answer else none

/-- One call takes a child off the end at which it asks, or finds nothing left. -/
theorem ask_cases (sound : c.Sound) (call : Direction) : (c.ask call).2.Sound ∧
    (((c.ask call).1 = none ∧ c.left = [] ∧ (c.ask call).2.left = []) ∨
      ∃ child, (c.ask call).1 = some child ∧
        (call = .forward ∧ c.left = child :: (c.ask call).2.left ∨
          call = .backward ∧ c.left = (c.ask call).2.left ++ [child])) := by
  by_cases more : c.front < c.back
  · cases call with
    | forward =>
      have taken : c.ask .forward = (c.owner.child? c.front, { c with front := c.front + 1 }) :=
        if_pos more
      obtain ⟨child, given, stretch⟩ := left_eq_cons sound more
      rw [taken]
      exact ⟨sound, .inr ⟨child, given, .inl ⟨rfl, stretch⟩⟩⟩
    | backward =>
      have taken : c.ask .backward =
          (c.owner.child? (c.back - 1), { c with back := c.back - 1 }) := if_pos more
      obtain ⟨child, given, stretch⟩ := left_eq_concat sound more
      rw [taken]
      exact ⟨Nat.le_trans (Nat.sub_le ..) sound, .inr ⟨child, given, .inr ⟨rfl, stretch⟩⟩⟩
  · have kept : c.ask call = (none, c) := by
      cases call with
      | forward => exact if_neg more
      | backward => exact if_neg more
    have empty := left_eq_nil sound more
    rw [kept]
    exact ⟨sound, .inl ⟨rfl, empty, empty⟩⟩

theorem handed_cons (c : Children t) (call : Direction) (later : List Direction)
    (direction : Direction) : c.handed (call :: later) direction =
      (if call = direction then (c.ask call).1.toList else []) ++
        (c.ask call).2.handed later direction := by
  rw [handed, answers, List.zip_cons_cons, List.filterMap_cons]
  by_cases same : call = direction
  · cases (c.ask call).1 <;> simp [same, handed]
  · simp [same, handed]

/-- What the calls at the two ends were given and what they leave make up what was left before,
each in its place. -/
theorem handed_append (sound : c.Sound) (calls : List Direction) :
    c.handed calls .forward ++ (c.after calls).left ++ (c.handed calls .backward).reverse =
      c.left := by
  induction calls generalizing c with
  | nil => simp [handed, answers, after]
  | cons call later ih =>
    obtain ⟨still, ⟨given, empty, rest⟩ | ⟨child, given, ⟨rfl, stretch⟩ | ⟨rfl, stretch⟩⟩⟩ :=
      ask_cases sound call
    · have others := ih still
      rw [rest] at others
      rw [handed_cons, handed_cons, given, empty]
      simpa [after] using others
    · rw [handed_cons, handed_cons, given, stretch, ← ih still]
      simp [after]
    · rw [handed_cons, handed_cons, given, stretch, ← ih still]
      simp [after]

/-- Calls are answered as long as anything is left, and from then on with nothing. -/
theorem map_isSome_answers (sound : c.Sound) (calls : List Direction) :
    (c.answers calls).map Option.isSome =
      List.replicate (min c.left.length calls.length) true ++
        List.replicate (calls.length - c.left.length) false := by
  induction calls generalizing c with
  | nil => simp [answers]
  | cons call later ih =>
    obtain ⟨still, ⟨given, empty, rest⟩ | ⟨child, given, ends⟩⟩ := ask_cases sound call
    · rw [answers, List.map_cons, given, ih still, rest, empty]
      simp [List.replicate_succ]
    · have size : c.left.length = (c.ask call).2.left.length + 1 := by
        rcases ends with ⟨_, stretch⟩ | ⟨_, stretch⟩ <;> simp [stretch]
      rw [answers, List.map_cons, given, ih still, size, List.length_cons, Nat.add_min_add_right,
        Nat.add_sub_add_right, List.replicate_succ]
      rfl

theorem answers_take (c : Children t) (calls : List Direction) (count : Nat) :
    c.answers (calls.take count) = (c.answers calls).take count := by
  induction calls generalizing c count with
  | nil => simp [answers]
  | cons call later ih =>
    cases count with
    | zero => rfl
    | succ count => rw [List.take_succ_cons, answers, ih, answers, List.take_succ_cons]

/-- What the calls leave is shorter by what they were given. -/
theorem remaining_after (sound : c.Sound) (calls : List Direction) :
    (c.after calls).remaining + (c.answers calls).countP Option.isSome = c.remaining := by
  induction calls generalizing c with
  | nil => simp [after, answers]
  | cons call later ih =>
    obtain ⟨still, ⟨given, empty, rest⟩ | ⟨child, given, ends⟩⟩ := ask_cases sound call
    · have others := ih still
      rw [← length_left still, rest] at others
      rw [answers, ← length_left sound, empty, List.countP_cons_of_neg (by simp [given])]
      exact others
    · have size : c.left.length = (c.ask call).2.left.length + 1 := by
        rcases ends with ⟨_, stretch⟩ | ⟨_, stretch⟩ <;> simp [stretch]
      rw [answers, ← length_left sound, size, length_left still, ← ih still,
        List.countP_cons_of_pos (by simp [given])]
      rfl

/-- However calls at the two ends are mixed, those at the front are given the first children in
order and those at the back the last children read backwards, and no child is given twice. The
first calls are given a child each, as many calls as there are children, and all later ones none.
After each call, what is reported as left is the number of children less the number of nodes given
so far. -/
theorem handed_out_once_from_either_end (n : Node t) (calls : List Direction) :
    (of n).handed calls .forward =
      n.children.take ((of n).handed calls .forward).length ∧
    (of n).handed calls .backward =
      n.children.reverse.take ((of n).handed calls .backward).length ∧
    ((of n).handed calls .forward ++ (of n).handed calls .backward).Nodup ∧
    ((of n).answers calls).map Option.isSome =
      List.replicate (min n.childCount calls.length) true ++
        List.replicate (calls.length - n.childCount) false ∧
    ∀ count, ((of n).after (calls.take count)).remaining =
      n.childCount - (((of n).answers calls).take count).countP Option.isSome := by
  have parts := handed_append (sound_of n) calls
  rw [left_of] at parts
  refine ⟨?_, ?_, ?_, ?_, ?_⟩
  · rw [← parts, List.append_assoc, List.take_left]
  · rw [← parts, List.reverse_append, List.reverse_reverse, List.take_left]
  · have distinct := n.nodup_children
    rw [← parts] at distinct
    have outer := distinct.sublist ((List.sublist_append_left ..).append_right _)
    exact (List.perm_append_left_iff _ |>.mpr (List.reverse_perm _)).nodup_iff.mp outer
  · rw [map_isSome_answers (sound_of n), left_of, n.length_children]
  · intro count
    have size := remaining_after (sound_of n) (calls.take count)
    rw [answers_take] at size
    exact Nat.eq_sub_of_add_eq size

end Children

end TreeNav
