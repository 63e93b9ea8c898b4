/-!
# Tables of character codes

A class of characters is given by ranges of codes. Whether a code lies in one of them is found by
halving the table.
-/

namespace Rostrum.Text

/-- Ranges of codes in increasing order, each by its first and its last code. -/
structure CodeTable where
  ranges : Array (Nat × Nat)

namespace CodeTable

/-- The number of ranges from `low` up to `high` that start at or before a code. -/
def startedBy (t : CodeTable) (code : Nat) : (fuel low high : Nat) → Nat
  | 0, low, _ => low
  | fuel + 1, low, high =>
    if low < high then
      let middle := (low + high) / 2
      if (t.ranges.getD middle (0, 0)).1 ≤ code then t.startedBy code fuel (middle + 1) high
      else t.startedBy code fuel low middle
    else low

/-- Whether a code lies in one of the ranges: if in any, then in the last one that starts by it. -/
def contains (t : CodeTable) (code : Nat) : Bool :=
  let count := t.startedBy code t.ranges.size 0 t.ranges.size
  0 < count && code ≤ (t.ranges.getD (count - 1) (0, 0)).2

end CodeTable

end Rostrum.Text
