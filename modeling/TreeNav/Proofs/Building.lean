import Mathlib.Logic.Relation
import TreeNav.Arena

/-!
Building an arena. The records of an arena refer to each other by number, and every step of the
builder keeps the references in agreement, checked or not: a record is listed by its parent at
the index it carries, and has a greater number. The node that is open is always on the last branch
of the tree so far, so a new node comes last in pre-order, and the numbers are handed out in
pre-order. With the check, a record also lies inside its parent, and the only way to fail is to
add a node outside the one that is open.
-/
namespace TreeNav

/-- The references between records agree. -/
structure Linked (nodes : Array ArenaNode) : Prop where
  top : ∀ (id : Nat) (r : ArenaNode), nodes[id]? = some r → (r.parent = none ↔ id = 0)
  above : ∀ (id : Nat) (r : ArenaNode) (p : Nat), nodes[id]? = some r → r.parent = some p →
    p < id ∧ ∃ up : ArenaNode, nodes[p]? = some up ∧ up.children[r.index]? = some id
  below : ∀ (id : Nat) (r : ArenaNode) (k c : Nat), nodes[id]? = some r →
    r.children[k]? = some c →
      ∃ child : ArenaNode, nodes[c]? = some child ∧ child.parent = some id ∧ child.index = k
  ascending : ∀ (id : Nat) (r : ArenaNode), nodes[id]? = some r → r.children.Pairwise (· < ·)

/-- Every record lies inside its parent. -/
def Covered (nodes : Array ArenaNode) : Prop :=
  ∀ (id p : Nat) (r up : ArenaNode), nodes[id]? = some r → r.parent = some p →
    nodes[p]? = some up → up.label.span.covers r.label.span = true

/-- A walk through the records in pre-order, with the numbers still to be visited on a stack:
the number on top is visited, and the children of its record are put in its place. From one
stack the walk visits some numbers and comes to another stack. -/
inductive Walk (nodes : Array ArenaNode) : List Nat → List Nat → List Nat → Prop
  | stay (stack : List Nat) : Walk nodes stack [] stack
  | visit {id : Nat} {r : ArenaNode} {rest seen stack : List Nat} (here : nodes[id]? = some r)
      (onward : Walk nodes (r.children ++ rest) seen stack) :
      Walk nodes (id :: rest) (id :: seen) stack

namespace Walk

variable {nodes nodes' : Array ArenaNode} {a b c seen seen' : List Nat}

theorem trans (first : Walk nodes a seen b) (second : Walk nodes b seen' c) :
    Walk nodes a (seen ++ seen') c := by
  induction first with
  | stay stack => exact second
  | visit here onward ih => exact .visit here (ih second)

/-- A walk leaves alone what lies below its stack. -/
theorem append (walk : Walk nodes a seen b) (rest : List Nat) :
    Walk nodes (a ++ rest) seen (b ++ rest) := by
  induction walk with
  | stay stack => exact .stay _
  | visit here onward ih =>
    refine .visit here ?_
    rwa [List.append_assoc] at ih

/-- A walk reads the records that it visits and no others. -/
theorem congr (walk : Walk nodes a seen b) (same : ∀ id ∈ seen, nodes'[id]? = nodes[id]?) :
    Walk nodes' a seen b := by
  induction walk with
  | stay stack => exact .stay stack
  | visit here onward ih =>
    refine .visit (by rw [same _ List.mem_cons_self, here]) (ih fun id member => ?_)
    exact same id (List.mem_cons_of_mem _ member)

/-- From where a walk has come to, a longer walk goes on. -/
theorem rest (first : Walk nodes a seen b) (whole : Walk nodes a (seen ++ seen') c) :
    Walk nodes b seen' c := by
  induction first with
  | stay stack => exact whole
  | visit here onward ih =>
    cases whole with
    | visit here' onward' =>
      rw [here, Option.some.injEq] at here'
      subst here'
      exact ih onward'

end Walk

namespace Builder

variable (b : Builder) (label : Label)

theorem getElem?_current : b.nodes[b.current]? = some b.openNode :=
  Array.getElem?_eq_getElem b.current_lt

theorem getElem?_extend_new : (b.extend label)[b.nodes.size]? =
    some ⟨label, some b.current, b.openNode.children.length, []⟩ := by
  rw [extend, Array.getElem?_push, if_pos (by simp)]

theorem getElem?_extend_current : (b.extend label)[b.current]? =
    some { b.openNode with children := b.openNode.children ++ [b.nodes.size] } := by
  have inside := b.current_lt
  simp [extend, Array.getElem?_push, Nat.ne_of_lt inside]

theorem getElem?_extend_other {id : Nat} (old : id < b.nodes.size) (other : id ≠ b.current) :
    (b.extend label)[id]? = b.nodes[id]? := by
  simp [extend, Array.getElem?_push, Nat.ne_of_lt old, other.symm]

variable {b}

/-- A record stays as it is when a node is added, but that it may list one more child. -/
theorem getElem?_extend_old {id : Nat} {r : ArenaNode} (found : b.nodes[id]? = some r) :
    ∃ more, (b.extend label)[id]? = some { r with children := r.children ++ more } := by
  by_cases opened : id = b.current
  · subst opened
    rw [getElem?_current, Option.some.injEq] at found
    subst found
    exact ⟨[b.nodes.size], getElem?_extend_current b label⟩
  · have old := (Array.getElem?_eq_some_iff.mp found).1
    exact ⟨[], by rw [getElem?_extend_other b label old opened, found, List.append_nil]⟩

variable {label}

/-- What the records are after a node was added. -/
theorem getElem?_extend_cases {id : Nat} {r : ArenaNode} (found : (b.extend label)[id]? = some r) :
    (id = b.nodes.size ∧ r = ⟨label, some b.current, b.openNode.children.length, []⟩) ∨
    (id = b.current ∧
      r = { b.openNode with children := b.openNode.children ++ [b.nodes.size] }) ∨
    (id ≠ b.current ∧ b.nodes[id]? = some r) := by
  have bound := (Array.getElem?_eq_some_iff.mp found).1
  rw [size_extend] at bound
  by_cases new : id = b.nodes.size
  · subst new
    rw [getElem?_extend_new, Option.some.injEq] at found
    exact .inl ⟨rfl, found.symm⟩
  · by_cases opened : id = b.current
    · subst opened
      rw [getElem?_extend_current, Option.some.injEq] at found
      exact .inr (.inl ⟨rfl, found.symm⟩)
    · rw [getElem?_extend_other b label (by omega) opened] at found
      exact .inr (.inr ⟨opened, found⟩)

section Extend

variable (linked : Linked b.nodes)
include linked

/-- A node that was there is still listed by its parent, and the new one is listed by the
node that was open. -/
theorem above_extend {id p : Nat} {r : ArenaNode} (found : (b.extend label)[id]? = some r)
    (parent : r.parent = some p) :
    p < id ∧ ∃ up : ArenaNode, (b.extend label)[p]? = some up ∧
      up.children[r.index]? = some id := by
  have carried (r : ArenaNode) (old : b.nodes[id]? = some r) (parent : r.parent = some p) :
      p < id ∧ ∃ up : ArenaNode, (b.extend label)[p]? = some up ∧
        up.children[r.index]? = some id := by
    obtain ⟨less, up, at_p, listed⟩ := linked.above _ _ _ old parent
    obtain ⟨more, at_p'⟩ := getElem?_extend_old label at_p
    refine ⟨less, _, at_p', ?_⟩
    rw [List.getElem?_append_left (List.getElem?_eq_some_iff.mp listed).1, listed]
  rcases getElem?_extend_cases found with ⟨rfl, rfl⟩ | ⟨rfl, rfl⟩ | ⟨_, old⟩
  · cases parent
    exact ⟨b.current_lt, _, getElem?_extend_current b label, by simp⟩
  · exact carried b.openNode b.getElem?_current parent
  · exact carried r old parent

/-- A child that was listed is still what it was, and the new child is what was added. -/
theorem below_extend {id k c : Nat} {r : ArenaNode} (found : (b.extend label)[id]? = some r)
    (listed : r.children[k]? = some c) :
    ∃ child : ArenaNode, (b.extend label)[c]? = some child ∧ child.parent = some id ∧
      child.index = k := by
  have carried (r : ArenaNode) (old : b.nodes[id]? = some r) (listed : r.children[k]? = some c) :
      ∃ child : ArenaNode, (b.extend label)[c]? = some child ∧ child.parent = some id ∧
        child.index = k := by
    obtain ⟨child, at_c, parent, index⟩ := linked.below _ _ _ _ old listed
    obtain ⟨more, at_c'⟩ := getElem?_extend_old label at_c
    exact ⟨_, at_c', parent, index⟩
  rcases getElem?_extend_cases found with ⟨rfl, rfl⟩ | ⟨rfl, rfl⟩ | ⟨_, old⟩
  · simp at listed
  · rcases Nat.lt_or_ge k b.openNode.children.length with earlier | last
    · rw [List.getElem?_append_left earlier] at listed
      exact carried b.openNode b.getElem?_current listed
    · rw [List.getElem?_append_right last, List.getElem?_singleton] at listed
      split at listed
      · rename_i at_end
        cases listed
        exact ⟨_, getElem?_extend_new b label, rfl, by dsimp only; omega⟩
      · cases listed
  · exact carried r old listed

theorem ascending_extend {id : Nat} {r : ArenaNode} (found : (b.extend label)[id]? = some r) :
    r.children.Pairwise (· < ·) := by
  rcases getElem?_extend_cases found with ⟨rfl, rfl⟩ | ⟨rfl, rfl⟩ | ⟨_, old⟩
  · exact .nil
  · refine List.pairwise_append.mpr ⟨linked.ascending _ _ b.getElem?_current, by simp, ?_⟩
    intro c member new at_end
    obtain ⟨k, listed⟩ := List.mem_iff_getElem?.mp member
    obtain ⟨child, at_c, _⟩ := linked.below _ _ _ _ b.getElem?_current listed
    rw [List.mem_singleton.mp at_end]
    exact (Array.getElem?_eq_some_iff.mp at_c).1
  · exact linked.ascending _ _ old

theorem linked_extend : Linked (b.extend label) where
  top id r found := by
    have filled := Nat.zero_lt_of_lt b.current_lt
    rcases getElem?_extend_cases found with ⟨rfl, rfl⟩ | ⟨rfl, rfl⟩ | ⟨_, old⟩
    · simp only [reduceCtorEq, false_iff]
      omega
    · exact linked.top b.current b.openNode b.getElem?_current
    · exact linked.top id r old
  above _ _ _ found parent := above_extend linked found parent
  below _ _ _ _ found listed := below_extend linked found listed
  ascending _ _ found := ascending_extend linked found

end Extend

/-- What holds of a builder at every moment: the references agree, the open nodes are given
from the inside out, a walk in pre-order comes to each of them with nothing else left to visit,
and the whole walk goes by the numbers in order. -/
structure Sound (b : Builder) : Prop where
  linked : Linked b.nodes
  nested : (b.current :: b.outer).Pairwise (· ≥ ·)
  opened : ∀ id ∈ b.current :: b.outer, Walk b.nodes [0] (List.range id) [id]
  whole : Walk b.nodes [0] (List.range b.nodes.size) []

theorem sound_start (kind : String) (span : Span) : (start kind span).Sound := by
  have only : ∀ (id : Nat) (r : ArenaNode), (start kind span).nodes[id]? = some r →
      id = 0 ∧ r = ⟨⟨kind, true, span⟩, none, 0, []⟩ := by
    intro id r found
    cases id with
    | zero => exact ⟨rfl, (Option.some.inj found).symm⟩
    | succ id => simp [start] at found
  refine ⟨⟨?_, ?_, ?_, ?_⟩, ?_, ?_, ?_⟩
  · intro id r found
    obtain ⟨rfl, rfl⟩ := only id r found
    simp
  · intro id r p found parent
    obtain ⟨rfl, rfl⟩ := only id r found
    cases parent
  · intro id r k c found listed
    obtain ⟨rfl, rfl⟩ := only id r found
    simp at listed
  · intro id r found
    obtain ⟨rfl, rfl⟩ := only id r found
    exact .nil
  · exact List.pairwise_singleton ..
  · intro id member
    rw [List.mem_singleton.mp member]
    exact .stay [0]
  · exact .visit rfl (.stay [])

/-- With a node added, a walk comes to the new node after all others, with nothing else left to
visit: it goes as before down to the node that is open, and from there on the new node waits
below the stack. -/
theorem walk_extend (sound : b.Sound) (label : Label) :
    Walk (b.extend label) [0] (List.range b.nodes.size) [b.nodes.size] := by
  have inside := b.current_lt
  have upto := sound.opened b.current List.mem_cons_self
  have parts : List.range b.nodes.size = List.range b.current ++
      (b.current :: List.range' (b.current + 1) (b.nodes.size - b.current - 1)) := by
    have joined := List.range'_append_1 (s := 0) (m := b.current) (n := b.nodes.size - b.current)
    rw [Nat.zero_add, Nat.add_sub_cancel' (Nat.le_of_lt inside)] at joined
    rw [← List.range'_succ, List.range_eq_range', List.range_eq_range', ← joined,
      Nat.sub_add_cancel (by omega)]
  have whole := sound.whole
  rw [parts] at whole ⊢
  have before : Walk (b.extend label) [0] (List.range b.current) [b.current] := by
    refine upto.congr fun id member => ?_
    have less := List.mem_range.mp member
    exact getElem?_extend_other b label (by omega) (by omega)
  refine before.trans ?_
  cases upto.rest whole with
  | visit here onward =>
    rw [getElem?_current, Option.some.injEq] at here
    subst here
    rw [List.append_nil] at onward
    refine .visit (getElem?_extend_current b label) ?_
    rw [List.append_nil]
    refine (onward.congr fun id member => ?_).append [b.nodes.size]
    have range := List.mem_range'_1.mp member
    exact getElem?_extend_other b label (by omega) (by omega)

/-- A node that is added leaves the builder sound. -/
theorem sound_push (sound : b.Sound) (label : Label) : (b.push label).Sound := by
  have last := walk_extend sound label
  refine ⟨linked_extend sound.linked, sound.nested, ?_, ?_⟩
  · -- The walk to an open node does not read the record of the innermost one.
    intro id member
    refine (sound.opened id member).congr fun seen before => ?_
    have less := List.mem_range.mp before
    have upto : id ≤ b.current := by
      rcases List.mem_cons.mp member with rfl | further
      · exact Nat.le_refl _
      · exact List.rel_of_pairwise_cons sound.nested further
    have inside := b.current_lt
    exact getElem?_extend_other b label (by omega) (by omega)
  · show Walk (b.extend label) [0] (List.range (b.extend label).size) []
    rw [size_extend, List.range_succ]
    exact last.trans (.visit (getElem?_extend_new b label) (.stay []))

theorem sound_openLast (sound : b.Sound)
    (last : Walk b.nodes [0] (List.range (b.nodes.size - 1)) [b.nodes.size - 1]) :
    b.openLast.Sound := by
  refine ⟨sound.linked, ?_, ?_, sound.whole⟩
  · refine List.pairwise_cons.mpr ⟨fun id member => ?_, sound.nested⟩
    have inside : id < b.nodes.size := b.openLast.outer_lt id member
    show b.nodes.size - 1 ≥ id
    omega
  · intro id member
    rcases List.mem_cons.mp member with rfl | further
    · exact last
    · exact sound.opened id further

theorem sound_leave (sound : b.Sound) : b.leave.Sound := by
  unfold leave
  split
  · exact sound
  · rename_i above outer split
    have nested := sound.nested
    have opened := sound.opened
    rw [split] at nested opened
    exact ⟨sound.linked, (List.pairwise_cons.mp nested).2,
      fun id member => opened id (List.mem_cons_of_mem _ member), sound.whole⟩

/-- One step, checked or not, keeps the builder sound. -/
theorem sound_place (sound : b.Sound) (step : BuildStep) : (b.place step).Sound := by
  cases step with
  | enter kind span =>
    have last := walk_extend sound ⟨kind, true, span⟩
    apply sound_openLast (sound_push sound _)
    rwa [push, size_extend, Nat.add_sub_cancel]
  | leave => exact sound_leave sound
  | leaf kind span => exact sound_push sound _
  | token kind span => exact sound_push sound _

/-- A whole run without checks keeps the builder sound. -/
theorem sound_foldl_place (sound : b.Sound) (steps : List BuildStep) :
    (steps.foldl place b).Sound :=
  List.foldlRecOn steps place sound fun _ kept step _ => sound_place kept step

/-- A step that passes its check goes where it goes without one. -/
theorem step_eq_ok {step : BuildStep} {after : Builder} (done : b.step step = .ok after) :
    after = b.place step ∧
      ∀ label, step.label? = some label → b.openNode.label.span.covers label.span = true := by
  unfold Builder.step at done
  split at done
  · rename_i silent
    cases done
    exact ⟨rfl, fun label adds => by simp [silent] at adds⟩
  · rename_i label adds
    split at done
    · rename_i fits
      cases done
      refine ⟨rfl, fun label' adds' => ?_⟩
      rw [adds, Option.some.injEq] at adds'
      exact adds' ▸ fits
    · cases done

theorem run_cons_ok {step : BuildStep} {rest : List BuildStep} {after : Builder}
    (first : b.step step = .ok after) : b.run (step :: rest) = after.run rest := by
  simp [run, first, bind, Except.bind]

theorem run_cons_error {step : BuildStep} {rest : List BuildStep} {e : Escape}
    (first : b.step step = .error e) : b.run (step :: rest) = .error e := by
  simp [run, first, bind, Except.bind]

/-- A run that goes through has gone through its first step. -/
theorem run_cons_eq_ok {step : BuildStep} {rest : List BuildStep} {after : Builder}
    (done : b.run (step :: rest) = .ok after) :
    ∃ next, b.step step = .ok next ∧ next.run rest = .ok after := by
  cases first : b.step step with
  | error e =>
    rw [run_cons_error first] at done
    cases done
  | ok next =>
    rw [run_cons_ok first] at done
    exact ⟨next, rfl, done⟩

/-- A run that passes all checks comes to where it comes without them. -/
theorem run_eq_ok {steps : List BuildStep} {after : Builder} (done : b.run steps = .ok after) :
    after = steps.foldl place b := by
  induction steps generalizing b with
  | nil =>
    cases done
    rfl
  | cons step rest ih =>
    obtain ⟨next, first, further⟩ := run_cons_eq_ok done
    rw [ih further, (step_eq_ok first).1, List.foldl_cons]

/-- If a node is added inside the open one, all go on lying inside their parents. -/
theorem covered_extend (linked : Linked b.nodes) (covered : Covered b.nodes)
    (fits : b.openNode.label.span.covers label.span = true) : Covered (b.extend label) := by
  intro id p r up found parent at_p
  have carried (r : ArenaNode) (old : b.nodes[id]? = some r) (parent : r.parent = some p) :
      up.label.span.covers r.label.span = true := by
    obtain ⟨_, above, at_above, _⟩ := linked.above _ _ _ old parent
    obtain ⟨more, at_p'⟩ := getElem?_extend_old label at_above
    rw [at_p, Option.some.injEq] at at_p'
    subst at_p'
    exact covered id p r above old parent at_above
  rcases getElem?_extend_cases found with ⟨rfl, rfl⟩ | ⟨rfl, rfl⟩ | ⟨_, old⟩
  · cases parent
    rw [getElem?_extend_current, Option.some.injEq] at at_p
    subst at_p
    exact fits
  · exact carried b.openNode b.getElem?_current parent
  · exact carried r old parent

theorem nodes_leave (b : Builder) : b.leave.nodes = b.nodes := by
  unfold leave
  split <;> rfl

theorem covered_step (sound : b.Sound) (covered : Covered b.nodes) {step : BuildStep}
    {after : Builder} (done : b.step step = .ok after) : Covered after.nodes := by
  obtain ⟨rfl, fits⟩ := step_eq_ok done
  cases step with
  | enter kind span => exact covered_extend sound.linked covered (fits _ rfl)
  | leave =>
    rw [place, nodes_leave]
    exact covered
  | leaf kind span => exact covered_extend sound.linked covered (fits _ rfl)
  | token kind span => exact covered_extend sound.linked covered (fits _ rfl)

theorem covered_run (sound : b.Sound) (covered : Covered b.nodes) {steps : List BuildStep}
    {after : Builder} (done : b.run steps = .ok after) : Covered after.nodes := by
  induction steps generalizing b with
  | nil =>
    cases done
    exact covered
  | cons step rest ih =>
    obtain ⟨next, first, further⟩ := run_cons_eq_ok done
    have kept : next.Sound := (step_eq_ok first).1 ▸ sound_place sound step
    exact ih kept (covered_step sound covered first) further

theorem covered_start (kind : String) (span : Span) : Covered (start kind span).nodes := by
  intro id p r up found parent
  cases id with
  | zero =>
    cases Option.some.inj found
    cases parent
  | succ id => simp [start] at found

end Builder

namespace BuildStep

/-- The ranges of the open nodes after a step: that of the innermost and those around it, from
the inside out. The outermost is never left. -/
def trail : Span × List Span → BuildStep → Span × List Span
  | (inner, outer), enter _ span => (span, inner :: outer)
  | (_, above :: outer), leave => (above, outer)
  | opened, _ => opened

/-- The range of the node that is open after some steps. -/
def openSpan (opened : Span × List Span) (steps : List BuildStep) : Span :=
  (steps.foldl trail opened).1

/-- Every step adds its node inside the one that is open at that moment. -/
def Fit (opened : Span × List Span) (steps : List BuildStep) : Prop :=
  ∀ before step after label, steps = before ++ step :: after → step.label? = some label →
    (openSpan opened before).covers label.span = true

theorem fit_nil (opened : Span × List Span) : Fit opened [] := by
  intro before step after label split
  simp at split

theorem fit_cons_iff {opened : Span × List Span} {step : BuildStep} {rest : List BuildStep} :
    Fit opened (step :: rest) ↔
      (∀ label, step.label? = some label → opened.1.covers label.span = true) ∧
        Fit (step.trail opened) rest := by
  constructor
  · intro fit
    refine ⟨fun label adds => fit [] step rest label rfl adds, ?_⟩
    intro before next after label split adds
    exact fit (step :: before) next after label (by rw [split]; rfl) adds
  · rintro ⟨first, others⟩ before next after label split adds
    cases before with
    | nil =>
      cases split
      exact first label adds
    | cons head before =>
      obtain ⟨rfl, split'⟩ := List.cons.inj split
      exact others before next after label split' adds

end BuildStep

namespace Builder

variable {b : Builder} {opened : Span × List Span}

/-- The range of a record. -/
def spanAt (b : Builder) (id : Nat) : Option Span := b.nodes[id]?.map fun r => r.label.span

/-- The open nodes have these ranges, from the inside out. -/
def Tracks (b : Builder) (opened : Span × List Span) : Prop :=
  (b.current :: b.outer).map b.spanAt = (opened.1 :: opened.2).map some

theorem Tracks.openNode (tracks : b.Tracks opened) : b.openNode.label.span = opened.1 := by
  have inner := (List.cons.inj tracks).1
  rw [spanAt, getElem?_current] at inner
  exact Option.some.inj inner

theorem spanAt_extend {label : Label} {id : Nat} (old : id < b.nodes.size) :
    (b.extend label)[id]?.map (fun r => r.label.span) = b.spanAt id := by
  obtain ⟨more, kept⟩ := getElem?_extend_old label (Array.getElem?_eq_getElem old)
  rw [kept, spanAt, Array.getElem?_eq_getElem old]
  rfl

/-- The open nodes keep their ranges when a node is added. -/
theorem tracks_push (tracks : b.Tracks opened) (label : Label) :
    (b.push label).Tracks opened ∧
      (b.push label).openLast.Tracks (label.span, opened.1 :: opened.2) := by
  have kept : (b.current :: b.outer).map
      (fun id => (b.extend label)[id]?.map fun r => r.label.span) =
        (opened.1 :: opened.2).map some := by
    rw [← tracks]
    refine List.map_congr_left fun id member => spanAt_extend ?_
    rcases List.mem_cons.mp member with rfl | further
    · exact b.current_lt
    · exact b.outer_lt id further
  refine ⟨kept, ?_⟩
  have last : (b.extend label)[(b.extend label).size - 1]?.map (fun r => r.label.span) =
      some label.span := by
    rw [size_extend, Nat.add_sub_cancel, getElem?_extend_new]
    rfl
  exact List.cons_eq_cons.mpr ⟨last, kept⟩

theorem tracks_leave (tracks : b.Tracks opened) :
    b.leave.Tracks (BuildStep.leave.trail opened) := by
  obtain ⟨inner, outer⟩ := opened
  have around := (List.cons.inj tracks).2
  unfold leave
  split
  · rename_i top
    rw [top] at around
    cases outer with
    | nil => exact tracks
    | cons above outer => cases around
  · rename_i up rest split
    rw [split] at around
    cases outer with
    | nil => cases around
    | cons above outer => exact around

theorem tracks_place (tracks : b.Tracks opened) (step : BuildStep) :
    (b.place step).Tracks (step.trail opened) := by
  cases step with
  | enter kind span => exact (tracks_push tracks _).2
  | leave => exact tracks_leave tracks
  | leaf kind span => exact (tracks_push tracks _).1
  | token kind span => exact (tracks_push tracks _).1

/-- A step goes through exactly if it adds nothing outside the open node. -/
theorem step_eq (tracks : b.Tracks opened) (step : BuildStep) :
    ((∀ label, step.label? = some label → opened.1.covers label.span = true) ∧
      ∃ b', b.step step = .ok b' ∧ b'.Tracks (step.trail opened)) ∨
    (∃ label, step.label? = some label ∧ opened.1.covers label.span = false ∧
      b.step step = .error ⟨label, opened.1⟩) := by
  have here := tracks.openNode
  have onward := tracks_place tracks step
  unfold Builder.step
  cases adds : step.label? with
  | none => exact .inl ⟨by simp, _, rfl, onward⟩
  | some label =>
    cases fits : opened.1.covers label.span with
    | true => exact .inl ⟨by simpa using fits, _, by simp [here, fits], onward⟩
    | false => exact .inr ⟨label, rfl, fits, by simp [here, fits]⟩

/-- A run goes through if every node fits, and else ends at the first that does not. -/
theorem run_eq (tracks : b.Tracks opened) (steps : List BuildStep) :
    (BuildStep.Fit opened steps ∧ ∃ b', b.run steps = .ok b') ∨
    ∃ before step after label, steps = before ++ step :: after ∧ BuildStep.Fit opened before ∧
      step.label? = some label ∧ (BuildStep.openSpan opened before).covers label.span = false ∧
      b.run steps = .error ⟨label, BuildStep.openSpan opened before⟩ := by
  induction steps generalizing b opened with
  | nil => exact .inl ⟨BuildStep.fit_nil opened, b, rfl⟩
  | cons step rest ih =>
    rcases step_eq tracks step with ⟨fits, b', done, tracks'⟩ | ⟨label, adds, out, failed⟩
    · rw [run_cons_ok done]
      rcases ih tracks' with
        ⟨others, finished⟩ | ⟨before, next, after, label, split, early, adds, out, failed⟩
      · exact .inl ⟨BuildStep.fit_cons_iff.mpr ⟨fits, others⟩, finished⟩
      · refine .inr ⟨step :: before, next, after, label, by rw [split]; rfl, ?_, adds, out, failed⟩
        exact BuildStep.fit_cons_iff.mpr ⟨fits, early⟩
    · exact .inr ⟨[], step, rest, label, rfl, BuildStep.fit_nil opened, adds, out,
        run_cons_error failed⟩

theorem run_eq_error (tracks : b.Tracks opened) {before after : List BuildStep} {step : BuildStep}
    {label : Label} (early : BuildStep.Fit opened before) (adds : step.label? = some label)
    (out : (BuildStep.openSpan opened before).covers label.span = false) :
    b.run (before ++ step :: after) = .error ⟨label, BuildStep.openSpan opened before⟩ := by
  induction before generalizing b opened with
  | nil =>
    rcases step_eq tracks step with ⟨fits, _⟩ | ⟨label', adds', _, failed⟩
    · exact absurd (fits label adds) (by rw [Bool.not_eq_true]; exact out)
    · rw [adds, Option.some.injEq] at adds'
      subst adds'
      exact run_cons_error failed
  | cons first before ih =>
    obtain ⟨fits, early'⟩ := BuildStep.fit_cons_iff.mp early
    rcases step_eq tracks first with ⟨_, b', done, tracks'⟩ | ⟨label', adds', out', _⟩
    · rw [List.cons_append, run_cons_ok done]
      exact ih tracks' early' out
    · rw [fits label' adds'] at out'
      cases out'

end Builder

namespace Arena

variable {kind : String} {span : Span} {steps : List BuildStep}

theorem build_eq_error_iff {e : Escape} :
    Arena.build kind span steps = .error e ↔ ∃ before step after,
      steps = before ++ step :: after ∧ BuildStep.Fit (span, []) before ∧
      step.label? = some e.child ∧ e.parent = BuildStep.openSpan (span, []) before ∧
      e.parent.covers e.child.span = false := by
  have tracks : (Builder.start kind span).Tracks (span, []) := rfl
  constructor
  · intro failed
    rcases Builder.run_eq tracks steps with
      ⟨_, b', done⟩ | ⟨before, step, after, label, split, early, adds, out, stopped⟩
    · rw [Arena.build, done] at failed
      cases failed
    · rw [Arena.build, stopped] at failed
      cases failed
      exact ⟨before, step, after, split, early, adds, rfl, out⟩
  · rintro ⟨before, step, after, rfl, early, adds, opened, out⟩
    rw [opened] at out
    rw [Arena.build, Builder.run_eq_error tracks early adds out, ← opened]
    rfl

theorem sound_assemble (kind : String) (span : Span) (steps : List BuildStep) :
    Linked (assemble kind span steps).nodes ∧ Walk (assemble kind span steps).nodes [0]
      (List.range (assemble kind span steps).size) [] := by
  have sound := Builder.sound_foldl_place (Builder.sound_start kind span) steps
  exact ⟨sound.linked, sound.whole⟩

/-- What is built with the check is what is built without it, and records lie inside their
parents. -/
theorem build_eq_ok {a : Arena} (built : Arena.build kind span steps = .ok a) :
    a = assemble kind span steps ∧ Covered a.nodes := by
  cases done : (Builder.start kind span).run steps with
  | error e =>
    rw [Arena.build, done] at built
    cases built
  | ok b =>
    rw [Arena.build, done] at built
    cases built
    exact ⟨congrArg Builder.finish (Builder.run_eq_ok done),
      Builder.covered_run (Builder.sound_start kind span) (Builder.covered_start kind span) done⟩

/-- The record number `c` has the record number `p` for its parent. -/
def IsParent (a : Arena) (p c : Nat) : Prop := ∃ r, a.node? c = some r ∧ r.parent = some p

/-- A record lies inside every record above it. -/
theorem covers_of_above {a : Arena} (linked : Linked a.nodes) (covered : Covered a.nodes)
    {p c : Nat} (above : Relation.TransGen a.IsParent p c) {up r : ArenaNode}
    (at_p : a.node? p = some up) (at_c : a.node? c = some r) :
    up.label.span.covers r.label.span = true := by
  induction above generalizing r with
  | single parent =>
    obtain ⟨r', at_c', parent⟩ := parent
    rw [at_c] at at_c'
    cases at_c'
    exact covered _ _ _ _ at_c parent at_p
  | tail _ parent ih =>
    obtain ⟨r', at_c', parent⟩ := parent
    rw [at_c] at at_c'
    cases at_c'
    obtain ⟨_, between, at_between, _⟩ := linked.above _ _ _ at_c parent
    exact Span.covers_trans (ih at_between) (covered _ _ _ _ at_c parent at_between)

/-- Building fails at the first node that is added outside the one open at that moment, and
only there. What is built otherwise is a tree: only the first record has no parent; every other
one has an earlier record for its parent and is listed there at its index; listed records have
the lister for their parent and come in ascending order; a record lies inside all above it; and
a walk in pre-order visits the numbers one after the other. -/
theorem build_makes_tree (kind : String) (span : Span) (steps : List BuildStep) :
    (∀ e, Arena.build kind span steps = .error e ↔ ∃ before step after,
      steps = before ++ step :: after ∧ BuildStep.Fit (span, []) before ∧
      step.label? = some e.child ∧ e.parent = BuildStep.openSpan (span, []) before ∧
      e.parent.covers e.child.span = false) ∧
    ∀ a, Arena.build kind span steps = .ok a →
      (∀ id r, a.node? id = some r → (r.parent = none ↔ id = 0)) ∧
      (∀ id r, a.node? id = some r → id ≠ 0 → ∃ p up, p < id ∧ r.parent = some p ∧
        a.node? p = some up ∧ up.children[r.index]? = some id) ∧
      (∀ p up c, a.node? p = some up → c ∈ up.children →
        ∃ r, a.node? c = some r ∧ r.parent = some p) ∧
      (∀ p up, a.node? p = some up → up.children.Pairwise (· < ·)) ∧
      (∀ p c up r, Relation.TransGen a.IsParent p c → a.node? p = some up →
        a.node? c = some r → up.label.span.covers r.label.span = true) ∧
      Walk a.nodes [0] (List.range a.size) [] := by
  refine ⟨fun e => build_eq_error_iff, fun a built => ?_⟩
  obtain ⟨rfl, covered⟩ := build_eq_ok built
  obtain ⟨linked, whole⟩ := sound_assemble kind span steps
  refine ⟨linked.top, ?_, ?_, linked.ascending, ?_, whole⟩
  · intro id r found inner
    cases parent : r.parent with
    | none => exact absurd ((linked.top id r found).mp parent) inner
    | some p =>
      obtain ⟨less, up, at_p, listed⟩ := linked.above id r p found parent
      exact ⟨p, up, less, rfl, at_p, listed⟩
  · intro p up c found member
    obtain ⟨k, listed⟩ := List.mem_iff_getElem?.mp member
    obtain ⟨r, at_c, parent, _⟩ := linked.below p up k c found listed
    exact ⟨r, at_c, parent⟩
  · exact fun p c up r above at_p at_c => covers_of_above linked covered above at_p at_c

/-- A block that holds a statement between two marks and is left once more than it was
entered. -/
def block : Except Escape Arena :=
  Arena.build "block" ⟨0, 12⟩ [.token "begin" ⟨0, 1⟩, .enter "statement" ⟨2, 10⟩,
    .leaf "name" ⟨2, 5⟩, .leave, .leave, .token "end" ⟨11, 12⟩]

/-- The five nodes of the block are numbered in pre-order. -/
theorem block_built_in_preorder :
    ∃ a, block = .ok a ∧ a.size = 5 ∧ Walk a.nodes [0] [0, 1, 2, 3, 4] [] := by
  refine ⟨_, rfl, rfl, ?_⟩
  exact ((build_makes_tree ..).2 _ (rfl : block = _)).2.2.2.2.2

end Arena

end TreeNav
