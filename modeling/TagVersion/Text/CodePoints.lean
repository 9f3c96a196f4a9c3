/-!
# Sets of code points

Properties of characters are tables of a standard. Each is kept as the ascending list of the
code points at which membership changes, which is about half as long as a list of ranges.
-/

namespace TagVersion.Text

/-- A set of code points, as the ascending points at which membership changes: the first entry
is the least member, the second the least later non-member, and so on. -/
structure CodePoints where
  flips : List Nat

namespace CodePoints

/-- A character belongs to the set when an odd number of changes lies at or below it. -/
def contains (s : CodePoints) (c : Char) : Bool :=
  (s.flips.takeWhile (· ≤ c.toNat)).length % 2 == 1

end CodePoints

end TagVersion.Text
