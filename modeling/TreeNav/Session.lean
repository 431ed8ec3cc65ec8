import TreeNav.Fault
import TreeNav.Navigation

/-!
Sessions: a host that keeps a caret and a selection and moves them by what its requests
report. A host is whoever makes the requests; that it shows and edits a text is left out.
-/
namespace TreeNav

/-- What a host keeps between requests. The selection is kept as it was set, so its ends
may be in either order. -/
structure Session where
  caret : Nat := 0
  selection : Option (Nat × Nat) := none
  select : Bool := false
deriving DecidableEq, Repr

namespace Session

/-- Puts the caret somewhere and drops the selection. -/
def setCaret (s : Session) (offset : Nat) : Session := { s with caret := offset, selection := none }

/-- Selects something; the caret stays. -/
def setSelection (s : Session) (a b : Nat) : Session := { s with selection := some (a, b) }

def setSelect (s : Session) (flag : Bool) : Session := { s with select := flag }

/-- The request to make a motion from here. -/
def request (s : Session) (language : String) (motion : Motion) : Request :=
  let request : Request := { language, caret := s.caret, motion, select := s.select }
  match s.selection with
  | some (a, b) => request.withSelection a b
  | none => request

/-- Takes over the caret and the selection that a move reports. -/
def follow (s : Session) : Outcome → Session
  | .noMovement => s
  | .moved caret selection _ =>
    { s with caret, selection := selection.map fun span => (span.start, span.stop) }

end Session

end TreeNav
