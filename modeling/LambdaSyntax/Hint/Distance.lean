/-
  LambdaSyntax.Hint.Distance — how far apart two words are: the least number of
  characters to insert, delete or replace that turns one into the other.

  The table of distances between all pairs of beginnings is filled row by row. `row a b`
  holds the distances from all of `a` to each beginning of `b`, the shortest first, and
  `nextRow` gives the row of a beginning that is one character longer.
-/

namespace LambdaSyntax.Hint

/-- The rest of a row: `left` is the entry just written, `above` the old row from the
    column to the left on. -/
def nextEntries (c : Char) : Nat → List Nat → List Char → List Nat
  | left, diagonal :: up :: above, d :: ds =>
    let entry := min (min (up + 1) (left + 1)) (diagonal + if c = d then 0 else 1)
    entry :: nextEntries c entry (up :: above) ds
  | _, _, _ => []

def nextRow (b : List Char) (above : List Nat) (c : Char) : List Nat :=
  match above with
  | [] => []
  | first :: _ => (first + 1) :: nextEntries c (first + 1) above b

def row (a b : List Char) : List Nat := a.foldl (nextRow b) (List.range (b.length + 1))

def distance (a b : List Char) : Nat := (row a b).getLast?.getD 0

end LambdaSyntax.Hint
