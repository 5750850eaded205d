/-!
# Character classes as ranges

A class of characters is written as a list of ranges of code points, both ends included.
`inRanges` decides membership.
-/

namespace Montage.Text

/-- A class of characters: the ranges of its code points, both ends included. -/
abbrev Ranges := List (Nat × Nat)

/-- A character belongs to a class when one of the ranges holds its code point. -/
def inRanges (rs : Ranges) (c : Char) : Bool :=
  rs.any fun r => decide (r.1 ≤ c.toNat) && decide (c.toNat ≤ r.2)

end Montage.Text
