/-!
Adjustments that a user makes to a language (`is_empty`).
-/
namespace TreeNav

/-- Kinds to take for trivial or for significant, and further file extensions. -/
structure Override where
  trivial : List String := []
  significant : List String := []
  extensions : List String := []
deriving DecidableEq, Repr

/-- The override asks for nothing. -/
def Override.isEmpty (o : Override) : Bool :=
  o.trivial.isEmpty && o.significant.isEmpty && o.extensions.isEmpty

end TreeNav
