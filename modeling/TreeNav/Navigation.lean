import TreeNav.Locate.Motion

/-!
Requests to move (`with_selection`, `select`, `current`) and what comes of them
(`navigate_with`). The parts of an outcome are read off its constructor, so questions for
single parts (`caret`, `selection`, `is_moved`) are left out.
-/
namespace TreeNav

/-- A host asks to move from a caret, or from a selection, in a source of some language.
With `select` the target is reported as a selection too. -/
structure Request where
  language : String
  caret : Nat
  motion : Motion
  selection : Option Span := none
  select : Bool := false
deriving DecidableEq, Repr

/-- What came of a request. -/
inductive Outcome where
  | noMovement
  | moved (caret : Nat) (selection : Option Span) (kind : String)
deriving DecidableEq, Repr

/-- The request with a selection between two offsets given in either order. -/
def Request.withSelection (r : Request) (a b : Nat) : Request :=
  { r with selection := some (Span.between a b) }

/-- The range to move from: the selection if it holds anything, else the caret. -/
def Request.current (r : Request) : Span :=
  match r.selection with
  | some selection => if selection.isEmpty then Span.caret r.caret else selection
  | none => Span.caret r.caret

/-- The outcome of moving to a node. -/
def Outcome.ofTarget {t : Tree} (r : Request) : Option (Node t) → Outcome
  | none => .noMovement
  | some n =>
    .moved n.span.start (if r.select || r.motion.changesSelection then some n.span else none) n.kind

/-- Answers a request over a tree. -/
def navigate (t : Tree) (lens : Lens) (r : Request) : Outcome :=
  .ofTarget r (lens.locate (Node.root t) r.current r.motion)

end TreeNav
