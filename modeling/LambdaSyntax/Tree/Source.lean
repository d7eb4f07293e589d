/-
  LambdaSyntax.Tree.Source — a tree written out as a source text.

  A child stands in parentheses exactly when it binds looser than its place admits, and
  lexemes are set apart by single blanks. `Tree.rank` says how tight a node binds: 0 for
  conditionals, functions, comparisons and arrows, then sums, products, applications, and 4
  for what stands on its own. The left operand of an operator has to bind as tight as the
  operator itself, the right one tighter; operands of a comparison are sums, arguments stand
  on their own, and an arrow has no arrow on its left.

  `typeLevels` is the number of levels that reading a type takes.
-/

import LambdaSyntax.Tree.Printed

namespace LambdaSyntax

def ArithOp.rank : ArithOp → Nat
  | add | sub => 1
  | mul | div => 2

namespace Tree

variable {σ : Type}

def rank : Tree σ → Nat
  | cond .. | func .. | compare .. | arrow .. => 0
  | arith op .. => op.rank
  | apply .. => 3
  | var .. | literal .. | int _ | bool _ => 4

/-- Lexemes, between parentheses if need be. -/
def grouped (needed : Bool) (words : List String) : List String :=
  if needed then "(" :: words ++ [")"] else words

/-- The lexemes of a tree's source text. -/
def words : Tree σ → List String
  | var x _ => [x]
  | literal v sort _ => [literalText v sort]
  | arith op l r _ =>
    grouped (l.rank < op.rank) l.words ++ op.symbol :: grouped (r.rank ≤ op.rank) r.words
  | compare op l r _ =>
    grouped (l.rank < 1) l.words ++ op.symbol :: grouped (r.rank < 1) r.words
  | apply f a _ => grouped (f.rank < 3) f.words ++ grouped (a.rank < 4) a.words
  | cond c y z _ => "if" :: c.words ++ "then" :: y.words ++ "else" :: z.words
  | func x p r b _ => "fun" :: x :: ":" :: p.words ++ ":" :: r.words ++ "is" :: b.words
  | int _ => ["int"]
  | bool _ => ["bool"]
  | arrow p r _ => grouped p.isArrow p.words ++ "->" :: r.words

def source (t : Tree σ) : String := String.intercalate " " t.words

end Tree

end LambdaSyntax
