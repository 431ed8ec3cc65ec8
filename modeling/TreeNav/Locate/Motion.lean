import TreeNav.Locate.Jump
import TreeNav.Motion

/-!
The node to which a motion leads from a caret or selection (`locate`).
-/
namespace TreeNav

/-- The target of a motion, looking from `n` down for the node that is current. -/
def Lens.locate {t : Tree} (lens : Lens) (n : Node t) (selection : Span) : Motion → Option (Node t)
  | .expand => n.expand selection
  | .shrink => lens.shrink n selection
  | .nextSibling => lens.sibling .forward (n.covering selection)
  | .previousSibling => lens.sibling .backward (n.covering selection)
  | .parent => lens.parent (n.covering selection)
  | .firstChild => lens.child .forward (n.covering selection)
  | .lastChild => lens.child .backward (n.covering selection)
  | .next category => lens.jump n (n.covering selection) category .forward
  | .previous category => lens.jump n (n.covering selection) category .backward

end TreeNav
