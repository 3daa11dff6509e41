/-!
Classes of characters given by closed ranges of code points. The tables of this folder list the
ranges above U+007F in rising order; below that bound each class is stated by its members.
-/

namespace Flowchart.Text

/-- Closed ranges of code points, each written as its first and its last one. -/
abbrev CodeRanges := List (Nat × Nat)

def CodeRanges.contains (ranges : CodeRanges) (c : Char) : Bool :=
  ranges.any fun range => range.1 ≤ c.toNat && c.toNat ≤ range.2

/-- The characters of the basic Latin block, on which every class is stated without a table. -/
def isBasic (c : Char) : Bool := c.toNat < 0x80

end Flowchart.Text
