/-
  LambdaSyntax.Tree.WellFormed — the trees that have a source text.

  Types hold types, expressions hold expressions, and only functions hold both. Names are
  words that are no keywords. A number is typed `integer` and is not negative; a truth value
  is typed `boolean`. Apart from that, `fits` says that no number is out of range, and
  `isShort` that none has too many digits to be written.
-/

import LambdaSyntax.Literal
import LambdaSyntax.Token.Lexeme
import LambdaSyntax.Tree.Basic

namespace LambdaSyntax

def isName (s : String) : Bool :=
  isWord s.toList && (spelled? Kind.keywords s.toList).isNone

namespace Tree

variable {σ : Type}

def isType : Tree σ → Bool
  | int _ | bool _ => true
  | arrow l r _ => l.isType && r.isType
  | _ => false

def isLiteral : Scalar → String → Bool
  | .number n, sort => sort = "integer" && 0 ≤ n
  | .truth _, sort => sort = "boolean"

def isExpression : Tree σ → Bool
  | var x _ => isName x
  | literal v sort _ => isLiteral v sort
  | arith _ l r _ | compare _ l r _ | apply l r _ => l.isExpression && r.isExpression
  | cond a b c _ => a.isExpression && b.isExpression && c.isExpression
  | func x p r b _ => isName x && p.isType && r.isType && b.isExpression
  | int _ | bool _ | arrow .. => false

/-- Does every number fit? -/
def fits : Tree σ → Bool
  | literal v _ _ => v.toInt ≤ Literal.largest
  | var .. | int _ | bool _ => true
  | arith _ l r _ | compare _ l r _ | apply l r _ | arrow l r _ => l.fits && r.fits
  | cond a b c _ | func _ a b c _ => a.fits && b.fits && c.fits

/-- Do all the literals of the tree pass? -/
def everyLiteral (ok : Scalar → String → Bool) : Tree σ → Bool
  | literal v sort _ => ok v sort
  | var .. | int _ | bool _ => true
  | arith _ l r _ | compare _ l r _ | apply l r _ | arrow l r _ => l.everyLiteral ok && r.everyLiteral ok
  | cond a b c _ | func _ a b c _ => a.everyLiteral ok && b.everyLiteral ok && c.everyLiteral ok

def isShort (t : Tree σ) : Bool := t.everyLiteral fun v _ => v.isShort

def isWellFormed (t : Tree σ) : Bool := t.isExpression || t.isType

end Tree

end LambdaSyntax
