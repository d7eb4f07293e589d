/-
  LambdaSyntax.Parse.Production — reading one construct off a list of tokens.

  A production starts where its state stands and either ends further on with a result or
  refuses a token; both leave the state they reached. Only the current token is looked at.
  A `finish` token is never passed.

  The state remembers, in `follow`, the kinds that could have continued the expression or
  type read last; a token refused right after it reports them too.
-/

import LambdaSyntax.SyntaxError

namespace LambdaSyntax.Parse

/-- What stays fixed while a stream is read. -/
structure Setting where
  /-- Stands where no token is left. -/
  closing : Token
  /-- The number of levels that the input may nest. -/
  limit : Int
  deriving DecidableEq, Repr

structure State where
  index : Nat
  rest : List Token
  follow : KindSet
  deriving DecidableEq, Repr

abbrev Production (α : Type) := EStateM SyntaxError State α

variable (S : Setting)

/-- The current token. -/
def State.current (s : State) : Token := s.rest.headD S.closing

/-- The state past the current token. -/
def State.next (s : State) : State :=
  match s.rest with
  | [] => s
  | t :: ts => if t.kind = .finish then s else { s with index := s.index + 1, rest := ts }

/-- The error at the current token when these kinds were expected. -/
def State.refusal (expected : KindSet) (s : State) : SyntaxError :=
  if (s.current S).kind = .finish then .unexpectedEnd expected (s.current S) s.index
  else .unexpected expected (s.current S) s.index

def peek : Production Kind := fun s => .ok (s.current S).kind s

/-- Passes the current token and answers it. -/
def advance : Production Token := fun s => .ok (s.current S) s.next

def refuse {α : Type} (expected : KindSet) : Production α := fun s => .error (s.refusal S expected) s

/-- Passes a token of kind `k`. -/
def consume (k : Kind) : Production Token := fun s =>
  if (s.current S).kind = k then advance S s else refuse S (.single k) s

/-- Passes a token of kind `k` that ends an expression or type. -/
def close (k : Kind) : Production Token := fun s =>
  if (s.current S).kind = k then advance S s else refuse S (s.follow ∪ .single k) s

def setFollow (follow : KindSet) : Production Unit := fun s => .ok () { s with follow := follow }

/-- The tokens that are left. -/
def remaining : Production (List Token) := fun s => .ok s.rest s

def tooDeep {α : Type} : Production α := fun s => .error (.tooDeep (s.current S) s.index S.limit) s

/-- Passes the current token and reads it as a literal; `read` also gets its index. -/
def literal {α : Type} (read : Token → Int → Except SyntaxError α) : Production (α × Token) :=
  fun s =>
    match read (s.current S) s.index with
    | .ok a => .ok (a, s.current S) s.next
    | .error e => .error e s.next

end LambdaSyntax.Parse
