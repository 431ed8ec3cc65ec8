import TreeNav.Session
import TreeNav.Proofs.WellFormed

/-!
Runs of a session over one tree. A host asks for motions one after the other and takes over
the caret and the selection that each move reports. Over a well-formed tree the range from
which a session goes on is the range of the node it has just moved to.
-/
namespace TreeNav

/-- What a host that asks for selections hears of a move to a node. -/
def Outcome.selecting {t : Tree} : Option (Node t) → Outcome
  | none => .noMovement
  | some n => .moved n.span.start (some n.span) n.kind

/-- What a host hears of a move to a node by a motion that leaves selections alone, with or
without asking for a selection. -/
def Outcome.reporting {t : Tree} (select : Bool) : Option (Node t) → Outcome
  | none => .noMovement
  | some n => .moved n.span.start (if select then some n.span else none) n.kind

/-- The range that an outcome selects. -/
def Outcome.range? : Outcome → Option Span
  | .noMovement => none
  | .moved _ selection _ => selection

namespace Session

/-- The range from which the next motion goes. -/
def current (s : Session) : Span :=
  match s.selection with
  | some (a, b) => if (Span.between a b).isEmpty then Span.caret s.caret else Span.between a b
  | none => Span.caret s.caret

theorem current_request (s : Session) (language : String) (motion : Motion) :
    (s.request language motion).current = s.current := by
  unfold request current
  cases s.selection <;> rfl

section Moves

variable (s : Session) (t : Tree) (lens : Lens) (language : String)

/-- The node to which a motion leads. -/
def target (motion : Motion) : Option (Node t) := lens.locate (Node.root t) s.current motion

/-- The answer to a request for a motion. -/
def ask (motion : Motion) : Outcome := navigate t lens (s.request language motion)

/-- The session after a motion was asked for. -/
def move (motion : Motion) : Session := s.follow (s.ask t lens language motion)

/-- The session after some motions were asked for. -/
def run : Session → List Motion → Session
  | s, [] => s
  | s, motion :: rest => run (s.move t lens language motion) rest

/-- The answers to requests for some motions, one after the other. -/
def answers : Session → List Motion → List Outcome
  | _, [] => []
  | s, motion :: rest => s.ask t lens language motion ::
      answers (s.move t lens language motion) rest

/-- The nodes to which some motions lead, one after the other. -/
def targets : Session → List Motion → List (Option (Node t))
  | _, [] => []
  | s, motion :: rest => s.target t lens motion :: targets (s.move t lens language motion) rest

/-- The session after a motion was asked for a number of times. -/
def repeated (motion : Motion) : Nat → Session
  | 0 => s
  | k + 1 => (repeated motion k).move t lens language motion

/-- The answer to a request for a motion that was asked for `k` times before. -/
def answer (motion : Motion) (k : Nat) : Outcome :=
  (s.repeated t lens language motion k).ask t lens language motion

end Moves

variable {s : Session} {t : Tree} {lens : Lens} {language : String} {motion : Motion}

theorem select_request (s : Session) (language : String) (motion : Motion) :
    (s.request language motion).select = s.select := by
  unfold request
  cases s.selection <;> rfl

theorem motion_request (s : Session) (language : String) (motion : Motion) :
    (s.request language motion).motion = motion := by
  unfold request
  cases s.selection <;> rfl

theorem ask_eq_reporting (plain : motion.changesSelection = false) :
    s.ask t lens language motion = .reporting s.select (s.target t lens motion) := by
  rw [ask, navigate, current_request, motion_request, target]
  cases lens.locate (Node.root t) s.current motion with
  | none => rfl
  | some n => simp [Outcome.ofTarget, Outcome.reporting, select_request, motion_request, plain]

theorem ask_of_select (selects : s.select = true) :
    s.ask t lens language motion = .selecting (s.target t lens motion) := by
  rw [ask, navigate, current_request, motion_request, target]
  cases lens.locate (Node.root t) s.current motion with
  | none => rfl
  | some n => rw [Outcome.ofTarget, select_request, selects]; rfl

theorem move_of_none (stays : s.target t lens motion = none) :
    s.move t lens language motion = s := by
  rw [move, ask, navigate, current_request, motion_request, ← target, stays]
  rfl

theorem repeated_of_none (stays : s.target t lens motion = none) (k : Nat) :
    s.repeated t lens language motion k = s := by
  induction k with
  | zero => rfl
  | succ k ih => rw [repeated, ih, move_of_none stays]

theorem move_of_some (selects : s.select = true) {n : Node t}
    (found : s.target t lens motion = some n) : s.move t lens language motion =
      { s with caret := n.span.start, selection := some (n.span.start, n.span.stop) } := by
  rw [move, ask_of_select selects, found]
  rfl

/-- Without asking for a selection a host keeps the caret alone. -/
theorem move_of_some_unselected (plain : motion.changesSelection = false)
    (unselected : s.select = false) {n : Node t} (found : s.target t lens motion = some n) :
    s.move t lens language motion = { s with caret := n.span.start, selection := none } := by
  simp [move, ask_eq_reporting plain, found, Outcome.reporting, follow, unselected]

@[simp] theorem select_move : (s.move t lens language motion).select = s.select := by
  unfold move follow
  cases s.ask t lens language motion <;> rfl

@[simp] theorem select_repeated (k : Nat) :
    (s.repeated t lens language motion k).select = s.select := by
  induction k with
  | zero => rfl
  | succ k ih => rw [repeated, select_move, ih]

theorem repeated_add (j k : Nat) :
    (s.repeated t lens language motion j).repeated t lens language motion k =
      s.repeated t lens language motion (j + k) := by
  induction k with
  | zero => rfl
  | succ k ih => rw [repeated, ih, ← Nat.add_assoc, repeated]

theorem repeated_move (k : Nat) :
    (s.move t lens language motion).repeated t lens language motion k =
      s.repeated t lens language motion (k + 1) := by
  rw [Nat.add_comm, ← repeated_add]
  rfl

theorem answer_move (k : Nat) :
    (s.move t lens language motion).answer t lens language motion k =
      s.answer t lens language motion (k + 1) := by
  rw [answer, repeated_move, answer]

@[simp] theorem select_run (motions : List Motion) :
    (s.run t lens language motions).select = s.select := by
  induction motions generalizing s with
  | nil => rfl
  | cons motion rest ih => rw [run, ih, select_move]

theorem run_append (front rest : List Motion) :
    s.run t lens language (front ++ rest) =
      (s.run t lens language front).run t lens language rest := by
  induction front generalizing s with
  | nil => rfl
  | cons motion front ih => rw [List.cons_append, run, ih, run]

theorem answers_append (front rest : List Motion) :
    s.answers t lens language (front ++ rest) =
      s.answers t lens language front ++
        (s.run t lens language front).answers t lens language rest := by
  induction front generalizing s with
  | nil => rfl
  | cons motion front ih => rw [List.cons_append, answers, ih, answers, run, List.cons_append]

/-- Once a motion leads nowhere it does so for good. -/
theorem target_of_le {j k : Nat} (le : j ≤ k) {m : Node t}
    (found : (s.repeated t lens language motion k).target t lens motion = some m) :
    ∃ n, (s.repeated t lens language motion j).target t lens motion = some n := by
  induction le generalizing m with
  | refl => exact ⟨m, found⟩
  | step le ih =>
    rename_i k
    cases earlier : (s.repeated t lens language motion k).target t lens motion with
    | some n => exact ih earlier
    | none =>
      rw [repeated, move_of_none earlier, earlier] at found
      cases found

theorem answers_eq_map_targets (selects : s.select = true) (motions : List Motion) :
    answers t lens language s motions = (targets t lens language s motions).map .selecting := by
  induction motions generalizing s with
  | nil => rfl
  | cons motion rest ih =>
    rw [answers, targets, List.map_cons, ask_of_select selects, ih (by rw [select_move, selects])]

theorem answer_eq_selecting (selects : s.select = true) (k : Nat) :
    s.answer t lens language motion k =
      .selecting ((s.repeated t lens language motion k).target t lens motion) :=
  ask_of_select (by rw [select_repeated, selects])

theorem answer_eq_noMovement_iff (selects : s.select = true) {k : Nat} :
    s.answer t lens language motion k = .noMovement ↔
      (s.repeated t lens language motion k).target t lens motion = none := by
  rw [answer_eq_selecting selects]
  cases (s.repeated t lens language motion k).target t lens motion with
  | none => exact iff_of_true rfl rfl
  | some n => exact iff_of_false nofun nofun

theorem between_of_le {span : Span} (ordered : span.start ≤ span.stop) :
    Span.between span.start span.stop = span :=
  Span.ext (Nat.min_eq_left ordered) (Nat.max_eq_right ordered)

theorem current_of_selection {span : Span} (held : span.isEmpty = false)
    (selected : s.selection = some (span.start, span.stop)) : s.current = span := by
  have ordered := Nat.le_of_lt ((Span.isEmpty_eq_false_iff span).mp held)
  rw [current, selected]
  dsimp only
  rw [between_of_le ordered, if_neg (by rw [held]; decide)]

/-- An empty target is reported as the caret it is. -/
theorem current_move (wf : t.WellFormed) (selects : s.select = true) {n : Node t}
    (found : s.target t lens motion = some n) :
    (s.move t lens language motion).current = n.span := by
  rw [move_of_some selects found, current]
  dsimp only
  rw [between_of_le (wf.ordered n)]
  split
  · rename_i empty
    rw [Span.isEmpty_iff] at empty
    exact Span.ext rfl (Nat.le_antisymm (wf.ordered n) empty)
  · rfl

theorem target_succ (wf : t.WellFormed) (selects : s.select = true) {n : Node t} {k : Nat}
    (found : (s.repeated t lens language motion k).target t lens motion = some n) :
    (s.repeated t lens language motion (k + 1)).target t lens motion =
      lens.locate (Node.root t) n.span motion := by
  rw [repeated, target, current_move wf (by rw [select_repeated, selects]) found]

end Session

end TreeNav
