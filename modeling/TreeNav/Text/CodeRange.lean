/-!
Sets of characters given as a list of closed intervals of code points.
-/
namespace TreeNav.Text

/-- The code point of `c` lies in one of the closed intervals of the table. -/
def inRanges (table : List (Nat × Nat)) (c : Char) : Bool :=
  table.any fun range => range.1 ≤ c.toNat && c.toNat ≤ range.2

end TreeNav.Text
