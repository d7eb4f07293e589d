/-
  LambdaSyntax.Parse.Counted — the tiers of the grammar as routines on a session.

  A routine takes nothing for granted. A token is looked up by its index, and there may be
  none. The depth is a counter that every level raises on its way in and lowers on every way
  out, and a construct is refused when the counter passes the limit. A repetition goes on
  until another token stands there and may run out of rounds. `Failure` tells all of these
  from a refused input. What room a run has is no part of this: only the limit bounds the
  levels.

  A call runs a step of a session, or one branch of a tier wherever the session stands, also
  where its tier would have chosen another.
-/

import LambdaSyntax.Parse.Session

namespace LambdaSyntax.Parse.Counted

inductive Failure where
  | refused (e : SyntaxError)
  /-- No token has this index. -/
  | outside (i : Nat)
  /-- More levels were left than entered. -/
  | unbalanced
  /-- A repetition has no round left, or a nesting no level. -/
  | exhausted

abbrev Routine (α : Type) := EStateM Failure Session α

variable {α : Type}

/-! ## Tokens -/

def tokenAt (i : Nat) : Routine Token := fun s =>
  match s.stream.tokens[i]? with
  | some t => .ok t s
  | none => .error (.outside i) s

def index : Routine Nat := fun s => .ok s.current s

def peek : Routine Token := do tokenAt (← index)

/-- The token before the current one; the first token has itself before it. -/
def previous : Routine Token := do
  let i ← index
  if 0 < i then tokenAt (i - 1) else tokenAt 0

def kind : Routine Kind := do return (← peek).kind

def check (k : Kind) : Routine Bool := do return (← kind) = k

def move : Routine Unit := fun s => .ok () { s with current := s.current + 1 }

/-- Passes the current token unless it is the end, and answers the one before. -/
def advance : Routine Token := do
  if ← check .finish then previous
  else
    move
    previous

def pass (k : Kind) : Routine Bool := do
  if ← check k then
    let _ ← advance
    return true
  else return false

def raise (e : SyntaxError) : Routine α := fun s => .error (.refused e) s

def refuse (expected : KindSet) : Routine α := do
  let t ← peek
  let i ← index
  if t.kind = .finish then raise (.unexpectedEnd expected t i) else raise (.unexpected expected t i)

/-- Passes a token of kind `k` where the kinds `also` could have stood as well. -/
def consume (k : Kind) (also : KindSet) : Routine Token := do
  if ← check k then advance else refuse (also ∪ .single k)

def follow : Routine KindSet := fun s => .ok s.follow s

def setFollow (f : KindSet) : Routine Unit := fun s => .ok () { s with follow := f }

/-- Passes a token of kind `k` that ends an expression or type. -/
def close (k : Kind) : Routine Token := do consume k (← follow)

def literal (read : Token → Int → Except SyntaxError α) : Routine (α × Token) := do
  let i ← index
  let t ← advance
  match read t i with
  | .ok a => return (a, t)
  | .error e => raise e

/-! ## Levels -/

def descend : Routine Unit := fun s => .ok () { s with depth := s.depth + 1 }

/-- Is the depth beyond the limit? -/
def beyond : Routine Bool := fun s => .ok (s.limit < s.depth) s

def tooDeep : Routine α := do
  let t ← peek
  let i ← index
  fun s => .error (.refused (.tooDeep t i s.limit)) s

def enter : Routine Unit := do
  descend
  if ← beyond then tooDeep

def leave : Routine Unit := fun s =>
  match s.depth with
  | 0 => .error .unbalanced s
  | d + 1 => .ok () { s with depth := d }

/-- Leaves a level whatever has come of what ran there. -/
def leaving : EStateM.Result Failure Session α → EStateM.Result Failure Session α
  | .ok a s => (do leave; return a : Routine α) s
  | .error e s => (do leave; throw e : Routine α) s

/-- Runs `r` one level down. -/
def level (r : Routine α) : Routine α := fun s => leaving ((do enter; r : Routine α) s)

/-! ## Types -/

/-- What stands between parentheses, for expressions and for types. -/
def group (nested : Routine Marked) : Routine Marked := do
  let _ ← advance
  let inner ← nested
  let _ ← close .rightParen
  return inner

def intType : Routine Marked := do
  let t ← advance
  return .int (.point t.loc)

def boolType : Routine Marked := do
  let t ← advance
  return .bool (.point t.loc)

def atomicType (nested : Routine Marked) : Routine Marked := do
  match ← kind with
  | .kwInt => intType
  | .kwBool => boolType
  | .leftParen => group nested
  | _ => refuse typeStart

def typeTier (nested : Routine Marked) : Routine Marked := do
  let domain ← atomicType nested
  if ← pass .arrow then
    let codomain ← nested
    return .arrow domain codomain (domain.mark.cover codomain.mark)
  else
    setFollow (.single .arrow)
    return domain

def typeExpr : Nat → Routine Marked
  | 0 => level (throw .exhausted)
  | levels + 1 => level (typeTier (typeExpr levels))

/-! ## Expressions -/

def number : Routine Marked := do
  let (n, t) ← literal Literal.integer
  return .literal (.number n) "integer" (.point t.loc)

def truth : Routine Marked := do
  let (b, t) ← literal Literal.boolean
  return .literal (.truth b) "boolean" (.point t.loc)

def name : Routine Marked := do
  let t ← advance
  return .var t.lexeme (.point t.loc)

def term (nested : Routine Marked) : Routine Marked := do
  match ← kind with
  | .integer => number
  | .kwTrue | .kwFalse => truth
  | .identifier => name
  | .leftParen => group nested
  | _ => refuse termStart

/-- As many rounds as there are tokens from the current one on. -/
def rounds : Routine Nat := fun s => .ok (s.stream.size - s.current) s

def arguments (nested : Routine Marked) : Nat → Marked → Routine Marked
  | 0, _ => throw .exhausted
  | more + 1, function => do
    if (← kind) ∈ termStart then
      let argument ← term nested
      arguments nested more (.apply function argument (function.mark.cover argument.mark))
    else return function

def application (nested : Routine Marked) : Routine Marked := do
  let function ← term nested
  arguments nested (← rounds) function

def operands (op? : Kind → Option ArithOp) (operand : Routine Marked) : Nat → Marked → Routine Marked
  | 0, _ => throw .exhausted
  | more + 1, left => do
    match op? (← kind) with
    | some op =>
      let _ ← advance
      let right ← operand
      operands op? operand more (.arith op left right (left.mark.cover right.mark))
    | none => return left

def chain (op? : Kind → Option ArithOp) (operand : Routine Marked) : Routine Marked := do
  let left ← operand
  operands op? operand (← rounds) left

def factor (nested : Routine Marked) : Routine Marked := chain factorOp? (application nested)

def sum (nested : Routine Marked) : Routine Marked := chain sumOp? (factor nested)

def comparison (nested : Routine Marked) : Routine Marked := do
  let left ← sum nested
  match compareOp? (← kind) with
  | none =>
    setFollow (operandFollow ∪ Hint.comparisons)
    return left
  | some op =>
    let _ ← advance
    let right ← sum nested
    setFollow operandFollow
    return .compare op left right (left.mark.cover right.mark)

def conditional (nested : Routine Marked) : Routine Marked := do
  let first ← advance
  let condition ← nested
  let _ ← close .kwThen
  let yes ← nested
  let _ ← close .kwElse
  let no ← nested
  return .cond condition yes no ⟨first.loc, no.mark.stop⟩

def function (nested types : Routine Marked) : Routine Marked := do
  let first ← advance
  let name ← consume .identifier ∅
  let _ ← consume .colon ∅
  let domain ← types
  let _ ← close .colon
  let codomain ← types
  let _ ← close .kwIs
  let body ← nested
  return .func name.lexeme domain codomain body ⟨first.loc, body.mark.stop⟩

def expressionTier (nested types : Routine Marked) : Routine Marked := do
  let k ← kind
  if k = .kwIf then conditional nested
  else if k = .kwFun then function nested types
  else if k ∈ expressionStart then comparison nested
  else refuse expressionStart

def expression : Nat → Routine Marked
  | 0 => level (throw .exhausted)
  | levels + 1 => level (expressionTier (expression levels) (typeExpr levels))

/-! ## Calls -/

def tier (levels : Nat) : Tier → Routine Marked
  | .expression => expression levels
  | .comparison => comparison (expression levels)
  | .sum => sum (expression levels)
  | .factor => factor (expression levels)
  | .application => application (expression levels)
  | .term => term (expression levels)
  | .type => typeExpr levels
  | .atomicType => atomicType (typeExpr levels)

def goal (levels : Nat) : Goal → Routine Marked
  | .expression => expression levels
  | .type => typeExpr levels

def reset : Routine Unit := fun s => .ok () { s with current := 0, depth := 0, follow := ∅ }

/-- The whole stream from its start, and then the end. -/
def root (levels : Nat) (g : Goal) : Routine Marked := do
  reset
  let t ← goal levels g
  let _ ← close .finish
  return t

/-- The branches of the tiers that are constructs of their own. -/
inductive Branch where
  | conditional
  | function
  | number
  | truth
  | name
  | group
  | intType
  | boolType
  | typeGroup
  deriving DecidableEq, Repr

def branch (levels : Nat) : Branch → Routine Marked
  | .conditional => conditional (expression levels)
  | .function => function (expression levels) (typeExpr levels)
  | .number => number
  | .truth => truth
  | .name => name
  | .group => group (expression levels)
  | .intType => intType
  | .boolType => boolType
  | .typeGroup => group (typeExpr levels)

inductive Call where
  | step (x : Session.Step)
  | branch (b : Branch)
  deriving DecidableEq, Repr

/-- The answer to a call, when its routine comes to a result or refuses the input. -/
def settle (answer : α → Session.Answer) : EStateM.Result Failure Session α → Option (Session.Answer × Session)
  | .ok a s => some (answer a, s)
  | .error (.refused e) s => some (.error e, s)
  | .error _ _ => none

def call (s : Session) : Call → Option (Session.Answer × Session)
  | .step (.read g) => settle .tree (root (levels s.limit 0) g s)
  | .step (.tier t) => settle .tree (tier (levels s.limit s.depth) t s)
  | .step .advance => settle .token (advance s)
  | .step .peek => settle .token (peek s)
  | .step .previous => settle .token (previous s)
  | .step (.consume k also) => settle .token (consume k also s)
  | .step (.pass k) => settle .truth (pass k s)
  | .step (.check k) => settle .truth (check k s)
  | .step .atEnd => settle .truth (check .finish s)
  | .step .enter => settle (fun _ => .nothing) (enter s)
  | .branch b => settle .tree (branch (levels s.limit s.depth) b s)

def calls (s : Session) : List Call → Option Session
  | [] => some s
  | c :: cs => do
    let (_, s') ← call s c
    calls s' cs

end LambdaSyntax.Parse.Counted
