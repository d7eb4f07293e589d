/-
  LambdaSyntax.Tree.Signs — a tree written out in the order of its source, without parentheses.

  A sign is what one token says: a kind that has one spelling, a name, or a value. The signs of
  a node are its own and those of its children, each at its place: operators and arrows stand
  between their operands, `if`, `then` and `else` before their parts, and so on. Parentheses
  are no part of a tree and have no sign.

  The signs of a node are a stretch of those of the whole tree. `parts` goes through a tree as
  `walk` does, and says of each node at which index its stretch begins.
-/

import LambdaSyntax.Token.Kind
import LambdaSyntax.Tree.Fold

namespace LambdaSyntax

inductive Sign where
  | only (k : Kind)
  | name (x : String)
  | value (v : Scalar)
  deriving DecidableEq, Repr

def ArithOp.kind : ArithOp → Kind
  | add => .plus
  | sub => .minus
  | mul => .times
  | div => .divide

def CompareOp.kind : CompareOp → Kind
  | less => .less
  | equal => .equal
  | greater => .greater

namespace Tree

variable {σ : Type}

def signs : Tree σ → List Sign
  | var x _ => [.name x]
  | literal v _ _ => [.value v]
  | arith op l r _ => l.signs ++ .only op.kind :: r.signs
  | compare op l r _ => l.signs ++ .only op.kind :: r.signs
  | apply f a _ => f.signs ++ a.signs
  | cond c y z _ => .only .kwIf :: c.signs ++ .only .kwThen :: y.signs ++ .only .kwElse :: z.signs
  | func x p r b _ =>
    .only .kwFun :: .name x :: .only .colon :: p.signs ++ .only .colon :: r.signs ++ .only .kwIs :: b.signs
  | int _ => [.only .kwInt]
  | bool _ => [.only .kwBool]
  | arrow p r _ => p.signs ++ .only .arrow :: r.signs

/-- The number of signs. -/
def width (t : Tree σ) : Nat := t.signs.length

/-- The children of a node whose signs begin at `i`, each with the index at which its own begin. -/
def places (i : Nat) : Tree σ → List (Nat × Tree σ)
  | var .. | literal .. | int _ | bool _ => []
  | apply f a _ => [(i, f), (i + f.width, a)]
  | arith _ l r _ | compare _ l r _ | arrow l r _ => [(i, l), (i + l.width + 1, r)]
  | cond c y z _ => [(i + 1, c), (i + 1 + c.width + 1, y), (i + 1 + c.width + 1 + y.width + 1, z)]
  | func _ p r b _ => [(i + 3, p), (i + 3 + p.width + 1, r), (i + 3 + p.width + 1 + r.width + 1, b)]

@[simp] theorem map_places (i : Nat) (t : Tree σ) : (t.places i).map Prod.snd = t.children := by
  cases t <;> rfl

def partsStack : List (Nat × Tree σ) → List (Nat × Tree σ)
  | [] => []
  | (i, t) :: ps => (i, t) :: partsStack (t.places i ++ ps)
termination_by ps => totalSize (ps.map Prod.snd)
decreasing_by
  simp only [List.map_append, map_places, totalSize_append, List.map_cons, totalSize, size_eq t]
  omega

/-- The nodes of a tree, parents first, each with the index at which its signs begin. -/
def parts (t : Tree σ) : List (Nat × Tree σ) := partsStack [(0, t)]

theorem map_partsStack (ps : List (Nat × Tree σ)) : (partsStack ps).map Prod.snd = walkStack (ps.map Prod.snd) := by
  induction ps using partsStack.induct with
  | case1 => rw [partsStack, List.map_nil, walkStack]
  | case2 i t ps ih =>
    rw [partsStack, List.map_cons, List.map_cons, walkStack, ih, List.map_append, map_places]

end Tree

end LambdaSyntax
