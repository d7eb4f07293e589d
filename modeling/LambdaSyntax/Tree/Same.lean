/-
  LambdaSyntax.Tree.Same — when two trees are the same, whatever their marks.

  `same` compares a list of pairs still to be checked: both of a pair must have one label,
  and then their children join the list in pairs. The `key` of a tree is the labels of its
  nodes, parents first; as a label fixes the number of children, the key tells trees apart.
  `firsts` sorts a list of trees into classes of the same ones.
-/

import LambdaSyntax.Tree.Fold

namespace LambdaSyntax.Tree

variable {σ τ : Type}

theorem totalSize_zip_le (ts : List (Tree σ)) (us : List (Tree τ)) :
    totalSize ((ts.zip us).map (·.1)) ≤ totalSize ts := by
  induction ts generalizing us with
  | nil => simp
  | cons t ts ih =>
    cases us with
    | nil => simp [totalSize]
    | cons u us => simpa [totalSize] using ih us

def sameStack : List (Tree σ × Tree τ) → Bool
  | [] => true
  | (t, u) :: rest => t.label = u.label && sameStack (t.children.zip u.children ++ rest)
termination_by pairs => totalSize (pairs.map (·.1))
decreasing_by
  have h := totalSize_zip_le t.children u.children
  simp only [List.map_append, totalSize_append, List.map_cons, totalSize, size_eq t]
  omega

def same (t : Tree σ) (u : Tree τ) : Bool := sameStack [(t, u)]

def key (t : Tree σ) : List Label := t.walk.map label

/-- For each tree the place of the first one that is the same. -/
def firsts (ts : List (Tree σ)) : List Nat := ts.map fun t => ts.findIdx (t.same ·)

/-- The number of different trees. -/
def classCount (ts : List (Tree σ)) : Nat := (firsts ts).eraseDups.length

end LambdaSyntax.Tree
