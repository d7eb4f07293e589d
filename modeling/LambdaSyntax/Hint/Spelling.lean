/-
  LambdaSyntax.Hint.Spelling — what a misspelled word or sign may have been meant to be.

  A word is compared in lower case with each candidate; those within `reach` edits are
  offered, the nearest first, at most `most` of them, and candidates that are equally near
  keep their order. A sign is looked up in a table.
-/

import LambdaSyntax.Hint.Distance
import LambdaSyntax.Text.LowerCase

namespace LambdaSyntax.Hint

def reach : Nat := 2

def most : Nat := 3

def wordDistance (word candidate : String) : Nat :=
  distance (Text.lowerCase word.toList) candidate.toList

/-- The candidates at exactly `d` edits from the word. -/
def candidatesAt (word : String) (candidates : List String) (d : Nat) : List String :=
  candidates.filter fun c => wordDistance word c = d

def nearest (word : String) (candidates : List String) : List String :=
  ((List.range (reach + 1)).flatMap (candidatesAt word candidates)).take most

/-- Signs of other notations, and the operator that says the same here. -/
def signs : List (String × String) :=
  [("=", "=="), ("!", "=="), ("%", "/"), ("≤", "<"), ("≥", ">"), ("≠", "=="), ("→", "->"),
   ("×", "*"), ("÷", "/")]

def operatorsFor (sign : String) : List String :=
  (signs.filter (·.1 = sign)).map (·.2)

end LambdaSyntax.Hint
