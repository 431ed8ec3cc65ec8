import TreeNav.Locate.Selection

/-!
Jumps to the nearest node of a category after or before the start of a node (`find`,
`first_after`, `last_before`). The searches go down from a node given by its path; that
they would run out of stack on a very deep tree is left out here and in all modules that
go down a tree.
-/
namespace TreeNav

namespace Tree

mutual

/-- The first wanted node in pre-order below a tree that stands at `here` which starts
after `anchor`. A wanted node is told by its parent's label and its own. Subtrees that
end at `anchor` or before are left out. -/
def firstAfter (anchor : Nat) (wanted : Label → Label → Bool) (here : Path) : Tree → Option Path
  | .node label children => firstAfterAmong anchor wanted label here 0 children

def firstAfterAmong (anchor : Nat) (wanted : Label → Label → Bool) (above : Label)
    (here : Path) (i : Nat) : List Tree → Option Path
  | [] => none
  | c :: cs =>
    if c.span.stop ≤ anchor then firstAfterAmong anchor wanted above here (i + 1) cs
    else if anchor < c.span.start && wanted above c.label then some (i :: here)
    else
      match c.firstAfter anchor wanted (i :: here) with
      | some path => some path
      | none => firstAfterAmong anchor wanted above here (i + 1) cs

end

mutual

/-- The last wanted node below a tree that stands at `here` which starts before `anchor`;
of wanted nodes that are nested and start together, the outermost. Subtrees that start
at `anchor` or later are left out. -/
def lastBefore (anchor : Nat) (wanted : Label → Label → Bool) (here : Path) : Tree → Option Hit
  | .node label children => lastBeforeAmong anchor wanted label here 0 children

def lastBeforeAmong (anchor : Nat) (wanted : Label → Label → Bool) (above : Label)
    (here : Path) (i : Nat) : List Tree → Option Hit
  | [] => none
  | c :: cs =>
    match lastBeforeAmong anchor wanted above here (i + 1) cs with
    | some hit => some hit
    | none =>
      if anchor ≤ c.span.start then none
      else
        let own := if wanted above c.label then some ⟨i :: here, c.span⟩ else none
        match c.lastBefore anchor wanted (i :: here) with
        | some hit => if own.isSome && hit.span.start == c.span.start then own else some hit
        | none => own

end

end Tree

/-- The nearest node of a category below `n` that starts after the start of `current`, or
before it. -/
def Lens.jump {t : Tree} (lens : Lens) (n current : Node t) (category : Category)
    (direction : Direction) : Option (Node t) :=
  let anchor := current.span.start
  let wanted := fun above label =>
    lens.classifier.belongs lens.view category (some above) label
  match direction with
  | .forward => (n.subtree.firstAfter anchor wanted n.path).bind t.node?
  | .backward => (n.subtree.lastBefore anchor wanted n.path).bind fun h => t.node? h.path

end TreeNav
