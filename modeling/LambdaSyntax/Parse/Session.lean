/-
  LambdaSyntax.Parse.Session — a reading that is driven step by step.

  A session stands at a token of its stream, at some depth. A step may read the whole stream
  from its start, read one construct where the session stands, or look at and pass single
  tokens. Whatever a step answers, the session keeps the place it reached and the kinds that
  could follow there; a construct leaves the depth as it found it. `enter` goes one level
  down for good, also when that is a level too many; reading the whole stream starts over.

  The session never stands past the first `finish` token that it meets.
-/

import LambdaSyntax.Grammar
import LambdaSyntax.Parse.Reading

namespace LambdaSyntax.Parse

/-- The production of a tier when `levels` are left. -/
def tierProduction (S : Setting) (levels : Nat) : Tier → Production Marked
  | .expression => expression S levels
  | .comparison => comparison S (expression S levels)
  | .sum => sum S (expression S levels)
  | .factor => factor S (expression S levels)
  | .application => application S (expression S levels)
  | .term => term S (expression S levels)
  | .type => typeExpr S levels
  | .atomicType => atomicType S (typeExpr S levels)

structure Session where
  stream : Stream
  limit : Int
  current : Nat
  depth : Nat
  follow : KindSet

namespace Session

inductive Step where
  | read (g : Goal)
  | tier (t : Tier)
  | advance
  | peek
  | previous
  | consume (k : Kind) (also : KindSet)
  | pass (k : Kind)
  | check (k : Kind)
  | atEnd
  | enter
  deriving DecidableEq, Repr

inductive Answer where
  | nothing
  | tree (t : Marked)
  | token (t : Token)
  | truth (b : Bool)
  | error (e : SyntaxError)

def start (stream : Stream) (limit : Int) : Session := ⟨stream, limit, 0, 0, ∅⟩

def setting (s : Session) : Setting := settingOf s.stream s.limit

/-- The session as a state of productions. -/
def state (s : Session) : State := ⟨s.current, s.stream.body.drop s.current, s.follow⟩

def restored (s : Session) (st : State) : Session :=
  { s with current := st.index, follow := st.follow }

/-- Runs a production where the session stands. -/
def perform (p : Production Marked) (s : Session) : Answer × Session :=
  match p s.state with
  | .ok t st => (.tree t, s.restored st)
  | .error e st => (.error e, s.restored st)

def peek (s : Session) : Token := s.stream.tokenAt s.current

/-- The token before the current one; the first token has itself before it. -/
def previous (s : Session) : Token := s.stream.tokenAt (s.current - 1)

def advance (s : Session) : Session := s.restored s.state.next

def step (s : Session) : Step → Answer × Session
  | .read g =>
    let fresh := { s with current := 0, depth := 0, follow := ∅ }
    fresh.perform (root s.setting (levels s.limit 0) g)
  | .tier t => s.perform (tierProduction s.setting (levels s.limit s.depth) t)
  | .advance => (.token s.advance.previous, s.advance)
  | .peek => (.token s.peek, s)
  | .previous => (.token s.previous, s)
  | .consume k also =>
    if s.peek.kind = k then (.token s.advance.previous, s.advance)
    else (.error (s.state.refusal s.setting (also ∪ .single k)), s)
  | .pass k =>
    if s.peek.kind = k then (.truth true, s.advance) else (.truth false, s)
  | .check k => (.truth (s.peek.kind = k), s)
  | .atEnd => (.truth (s.peek.kind = .finish), s)
  | .enter =>
    let deeper := { s with depth := s.depth + 1 }
    if s.limit < deeper.depth then (.error (.tooDeep s.peek s.current s.limit), deeper)
    else (.nothing, deeper)

end Session

end LambdaSyntax.Parse
