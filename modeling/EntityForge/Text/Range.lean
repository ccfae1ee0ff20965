/-!
# Sets of characters given by ranges

A property of characters beyond ASCII is a table of closed ranges of code points. `inRanges` reads such a
table.
-/

namespace EntityForge.Text

/-- Whether a code point lies in one of the closed ranges of a table. -/
def inRanges (table : List (Nat × Nat)) (n : Nat) : Bool :=
  table.any fun range => range.1 ≤ n && n ≤ range.2

end EntityForge.Text
