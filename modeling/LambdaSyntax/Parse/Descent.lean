/-
  LambdaSyntax.Parse.Descent — the tiers of the grammar as productions.

  One token of lookahead settles every choice, and nothing is read twice. A tier whose
  grammar recurses on the left reads its first operand and then takes further ones in a
  loop, grouping them from the left.

  Only expressions and types contain one another without end, so only they count as levels.
  `expression` and `typeExpr` recurse on the number of levels that are left; the tiers
  between take the production for the next level as an argument. Repetitions recurse on the
  tokens that are left, of which every round uses at least one.

  A tree is marked with the span from its first token to its last; parentheses leave no
  trace.
-/

import LambdaSyntax.Literal
import LambdaSyntax.Parse.Production
import LambdaSyntax.Tree.Basic

namespace LambdaSyntax.Parse

/-! ## What may start, and what may follow -/

def termStart : KindSet := .ofList [.integer, .kwTrue, .kwFalse, .identifier, .leftParen]

def expressionStart : KindSet := termStart ∪ .ofList [.kwIf, .kwFun]

def typeStart : KindSet := .ofList [.kwInt, .kwBool, .leftParen]

/-- The kinds that extend a finished sum. -/
def operandFollow : KindSet := termStart ∪ .ofList [.times, .divide, .plus, .minus]

def factorOp? : Kind → Option ArithOp
  | .times => some .mul
  | .divide => some .div
  | _ => none

def sumOp? : Kind → Option ArithOp
  | .plus => some .add
  | .minus => some .sub
  | _ => none

def compareOp? : Kind → Option CompareOp
  | .less => some .less
  | .equal => some .equal
  | .greater => some .greater
  | _ => none

variable (S : Setting)

abbrev Marked := Tree Span

/-! ## Types -/

/-- An atomic type; `nested` reads the type between parentheses. -/
def atomicType (nested : Production Marked) : Production Marked := do
  match ← peek S with
  | .kwInt => let t ← advance S; return .int (.point t.loc)
  | .kwBool => let t ← advance S; return .bool (.point t.loc)
  | .leftParen =>
    let _ ← advance S
    let inner ← nested
    let _ ← close S .rightParen
    return inner
  | _ => refuse S typeStart

/-- A type whose parts to the right of an arrow and between parentheses are `nested`. -/
def typeTier (nested : Production Marked) : Production Marked := do
  let domain ← atomicType S nested
  if (← peek S) = .arrow then
    let _ ← advance S
    let codomain ← nested
    return .arrow domain codomain (domain.mark.cover codomain.mark)
  else
    setFollow (.single .arrow)
    return domain

def typeExpr : Nat → Production Marked
  | 0 => tooDeep S
  | levels + 1 => typeTier S (typeExpr levels)

/-! ## Expressions -/

def term (nested : Production Marked) : Production Marked := do
  match ← peek S with
  | .integer =>
    let (n, t) ← literal S Literal.integer
    return .literal (.number n) "integer" (.point t.loc)
  | .kwTrue | .kwFalse =>
    let (b, t) ← literal S Literal.boolean
    return .literal (.truth b) "boolean" (.point t.loc)
  | .identifier => let t ← advance S; return .var t.lexeme (.point t.loc)
  | .leftParen =>
    let _ ← advance S
    let inner ← nested
    let _ ← close S .rightParen
    return inner
  | _ => refuse S termStart

/-- The arguments that stand behind `function`, at most one for each of the tokens `bound`. -/
def arguments (nested : Production Marked) : List Token → Marked → Production Marked
  | [], function => return function
  | _ :: bound, function => do
    if (← peek S) ∈ termStart then
      let argument ← term S nested
      arguments nested bound (.apply function argument (function.mark.cover argument.mark))
    else return function

def application (nested : Production Marked) : Production Marked := do
  let function ← term S nested
  arguments S nested (← remaining) function

/-- The operators and operands that stand behind `left`, at most one pair for each of the
    tokens `bound`. -/
def operands (op? : Kind → Option ArithOp) (operand : Production Marked) :
    List Token → Marked → Production Marked
  | [], left => return left
  | _ :: bound, left => do
    match op? (← peek S) with
    | some op =>
      let _ ← advance S
      let right ← operand
      operands op? operand bound (.arith op left right (left.mark.cover right.mark))
    | none => return left

/-- Operands joined by operators, grouped from the left. -/
def chain (op? : Kind → Option ArithOp) (operand : Production Marked) : Production Marked := do
  let left ← operand
  operands S op? operand (← remaining) left

def factor (nested : Production Marked) : Production Marked :=
  chain S factorOp? (application S nested)

def sum (nested : Production Marked) : Production Marked := chain S sumOp? (factor S nested)

def comparison (nested : Production Marked) : Production Marked := do
  let left ← sum S nested
  match compareOp? (← peek S) with
  | none =>
    setFollow (operandFollow ∪ Hint.comparisons)
    return left
  | some op =>
    let _ ← advance S
    let right ← sum S nested
    setFollow operandFollow
    return .compare op left right (left.mark.cover right.mark)

def conditional (nested : Production Marked) : Production Marked := do
  let first ← advance S
  let condition ← nested
  let _ ← close S .kwThen
  let yes ← nested
  let _ ← close S .kwElse
  let no ← nested
  return .cond condition yes no ⟨first.loc, no.mark.stop⟩

def function (nested types : Production Marked) : Production Marked := do
  let first ← advance S
  let name ← consume S .identifier
  let _ ← consume S .colon
  let domain ← types
  let _ ← close S .colon
  let codomain ← types
  let _ ← close S .kwIs
  let body ← nested
  return .func name.lexeme domain codomain body ⟨first.loc, body.mark.stop⟩

/-- An expression whose parts are `nested` expressions and `types`. -/
def expressionTier (nested types : Production Marked) : Production Marked := do
  let k ← peek S
  if k = .kwIf then conditional S nested
  else if k = .kwFun then function S nested types
  else if k ∈ expressionStart then comparison S nested
  else refuse S expressionStart

def expression : Nat → Production Marked
  | 0 => tooDeep S
  | levels + 1 => expressionTier S (expression levels) (typeExpr S levels)

end LambdaSyntax.Parse
