/-
  LambdaSyntax.Scalar — the values that a literal can hold: whole numbers and truth values.

  A truth value counts as a number, `true` as one and `false` as zero, and two scalars that
  count the same are the same for comparing trees; their texts differ all the same.

  `text?` is what can be written of a scalar; a number of too many digits cannot. `text` does
  not count the digits.
-/

import LambdaSyntax.Text.Integer

namespace LambdaSyntax

inductive Scalar where
  | number (n : Int)
  | truth (b : Bool)
  deriving DecidableEq, Repr

namespace Scalar

def toInt : Scalar → Int
  | number n => n
  | truth b => if b then 1 else 0

def text : Scalar → String
  | number n => toString n
  | truth b => if b then "True" else "False"

def isShort : Scalar → Bool
  | number n => Text.isShort n
  | truth _ => true

def text? : Scalar → Option String
  | number n => Text.numeral? n
  | truth b => some (if b then "True" else "False")

end Scalar

end LambdaSyntax
