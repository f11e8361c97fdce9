namespace RecordLogic.Text

/-- One more row of the table of distances: `row` holds the distances of the text so far to every
prefix of `bs`, and `c` is its next character. -/
def nextRow (c : Char) (left : Nat) : List Char → List Nat → List Nat
  | b :: bs, diagonal :: above :: row =>
    let here := min (min (above + 1) (left + 1)) (diagonal + if c = b then 0 else 1)
    here :: nextRow c here bs (above :: row)
  | _, _ => []

/-- The least number of characters to insert, delete or replace to get from `a` to `b`. -/
def distance (a b : List Char) : Nat :=
  let rows := a.foldl (fun row c => (row.headD 0 + 1) :: nextRow c (row.headD 0 + 1) b row)
    (List.range (b.length + 1))
  rows.getLastD 0

end RecordLogic.Text
