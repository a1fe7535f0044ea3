/-!
# Text — sets of code points

A property of characters is a list of closed intervals of code points, in ascending order.
`CodePoint.member` looks a code point up and stops at the first interval that lies above it.
-/

namespace Linkage.CodePoint

/-- A closed interval of code points. -/
abbrev Interval := Nat × Nat

/-- `n` lies in one of the intervals, which ascend. -/
def member : List Interval → Nat → Bool
  | [],               _ => false
  | (lo, hi) :: rest, n => if n < lo then false else n ≤ hi || member rest n

end Linkage.CodePoint
