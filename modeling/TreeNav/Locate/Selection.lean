import TreeNav.Locate.Position
import TreeNav.Locate.Sibling

/-!
Growing a selection to the next range around it (`expand`), and shrinking it to the largest
significant node strictly inside (`shrink`, `collect_largest`).
-/
namespace TreeNav

/-- A node found by a search: its path and its range. -/
structure Hit where
  path : Path
  span : Span
deriving DecidableEq, Repr

namespace Tree

/-- The range is strictly longer than that of the best hit so far, if there is one. -/
def beats (span : Span) : Option Hit → Bool
  | none => true
  | some best => best.span.length < span.length

mutual

/-- The longest node below a tree that stands at `here`, among those that qualify and
lie inside the selection without filling it; the earliest in pre-order of several.
A subtree that sticks out of the selection is left out as a whole. -/
def largestWithin (selection : Span) (qualifies : Label → Bool) (here : Path)
    (best : Option Hit) : Tree → Option Hit
  | .node _ children => largestAmong selection qualifies here 0 best children

def largestAmong (selection : Span) (qualifies : Label → Bool) (here : Path) (i : Nat)
    (best : Option Hit) : List Tree → Option Hit
  | [] => best
  | c :: cs =>
    if selection.covers c.span then
      let better := c.span != selection && !c.span.isEmpty && qualifies c.label && beats c.span best
      let best := if better then some ⟨i :: here, c.span⟩ else best
      largestAmong selection qualifies here (i + 1)
        (c.largestWithin selection qualifies (i :: here) best) cs
    else largestAmong selection qualifies here (i + 1) best cs

end

end Tree

namespace Node

variable {t : Tree}

/-- The next node to select around a selection, looking from `n` down: the node at the
caret if nothing is selected, else the innermost covering node of another range. The
root of the tree is never selected. -/
def expand (n : Node t) (selection : Span) : Option (Node t) :=
  let target :=
    if selection.isEmpty then some (n.atOffset selection.start)
    else
      let cover := n.covering selection
      if cover.span = selection then cover.ancestors.find? fun a => a.span != selection
      else some cover
  target.filter fun m => !m.isRoot

end Node

/-- The longest significant node strictly inside a selection, looking from `n` down. -/
def Lens.shrink {t : Tree} (lens : Lens) (n : Node t) (selection : Span) : Option (Node t) :=
  if selection.isEmpty then none
  else
    let cover := n.covering selection
    let hit := cover.subtree.largestWithin selection
      (lens.classifier.isSignificant lens.view) cover.path none
    hit.bind fun h => t.node? h.path

end TreeNav
