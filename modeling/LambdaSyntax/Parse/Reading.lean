/-
  LambdaSyntax.Parse.Reading — whole lists of tokens and whole texts read as one tree.

  `readTokens` reads an expression or a type and then wants the end. `readText` cuts a text into
  tokens first; a bad character is reported before anything else.

  Both have room for every level that the limit allows. A host that reads by recursion has not:
  where its room is used up, it reports the token it has reached as too deep, and names the
  limit all the same. `readTokensBelow` reads with room for `ceiling` levels; it is `readTokens`
  at the smaller of the two, with the limit put into what it reports
  (`readTokensBelow_eq`). How many levels a host has room for, and that it runs out of it just
  where a level is entered, is left to whoever gives the ceiling.
-/

import LambdaSyntax.Parse.Descent
import LambdaSyntax.Parse.Stream
import LambdaSyntax.Token.Scan

namespace LambdaSyntax

/-- What a text is to be read as. -/
inductive Goal where
  | expression
  | type
  deriving DecidableEq, Repr

/-- Why a text is refused. -/
inductive Fault where
  | lexical (e : LexicalError)
  | grammatical (e : SyntaxError)
  deriving DecidableEq, Repr

namespace Parse

/-- The number of levels that an input may nest when nothing else is said. -/
def defaultLimit : Int := 83

/-- The levels left at a depth. -/
def levels (limit depth : Int) : Nat := (limit - depth).toNat

def goalProduction (S : Setting) (levels : Nat) : Goal → Production Marked
  | .expression => expression S levels
  | .type => typeExpr S levels

/-- A tree and then the end. -/
def root (S : Setting) (levels : Nat) (g : Goal) : Production Marked := do
  let t ← goalProduction S levels g
  let _ ← close S .finish
  return t

def settingOf (s : Stream) (limit : Int) : Setting := ⟨s.closing, limit⟩

def initial (s : Stream) : State := ⟨0, s.body, ∅⟩

def readStream (levels : Nat) (limit : Int) (g : Goal) (s : Stream) : Except SyntaxError Marked :=
  match root (settingOf s limit) levels g (initial s) with
  | .ok t _ => .ok t
  | .error e _ => .error e

end Parse

/-- Reads a list of tokens that may nest up to `limit` levels. -/
def readTokens (g : Goal) (limit : Int) (ts : List Token) : Except SyntaxError (Tree Span) :=
  Parse.readStream (Parse.levels limit 0) limit g (.ofTokens ts)

/-- Reads a list of tokens that may nest up to `limit` levels, with room for `ceiling` of them. -/
def readTokensBelow (ceiling : Nat) (g : Goal) (limit : Int) (ts : List Token) :
    Except SyntaxError (Tree Span) :=
  Parse.readStream (min (Parse.levels limit 0) ceiling) limit g (.ofTokens ts)

def readText (g : Goal) (limit : Int) (file source : String) : Except Fault (Tree Span) :=
  match tokenize file source with
  | .error e => .error (.lexical e)
  | .ok ts =>
    match readTokens g limit ts with
    | .error e => .error (.grammatical e)
    | .ok t => .ok t

/-- Reads all the texts, or reports the first fault. -/
def readTexts (g : Goal) (limit : Int) (file : String) :
    List String → Except Fault (List (Tree Span))
  | [] => .ok []
  | source :: rest => do
    let t ← readText g limit file source
    let ts ← readTexts g limit file rest
    return t :: ts

end LambdaSyntax
