/-! How far two texts are apart: the least number of insertions, deletions and replacements that
turn one into the other. -/

namespace ReviewQueue.Text

/-- The next row of distances, where `left` is the entry before and `diagonal` the one above it. -/
def nextRow [BEq α] (x : α) (left diagonal : Nat) : List α → List Nat → List Nat
  | y :: ys, above :: row =>
    let here := min (min (left + 1) (above + 1)) (if x == y then diagonal else diagonal + 1)
    here :: nextRow x here above ys row
  | _, _ => []

/-- The distances of a list to all prefixes of `ys`, given those of what comes before it. -/
def distanceRow [BEq α] (ys : List α) : List Nat → List α → List Nat
  | row, [] => row
  | row, x :: xs =>
    let first := row.head?.getD 0
    distanceRow ys ((first + 1) :: nextRow x (first + 1) first ys row.tail) xs

/-- The distance of two lists. -/
def distance [BEq α] (xs ys : List α) : Nat :=
  (distanceRow ys (List.range (ys.length + 1)) xs).getLast?.getD 0

end ReviewQueue.Text
