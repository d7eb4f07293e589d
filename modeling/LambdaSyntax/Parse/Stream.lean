/-
  LambdaSyntax.Parse.Stream — a list of tokens with its end.

  The last token of a stream is a `finish` token. A list that lacks one is completed: the
  token is put just past the lexeme of the last token, or at the start of an unnamed text
  when there is none. `finish` tokens may also stand inside, and the first one met is the
  end of what is read.
-/

import LambdaSyntax.Token.Basic

namespace LambdaSyntax

structure Stream where
  /-- The tokens before the closing one. -/
  body : List Token
  closing : Token
  closing_kind : closing.kind = .finish

namespace Stream

/-- The place of the end of a list that does not say where it is. -/
def endOf (ts : List Token) : Location :=
  match ts.getLast? with
  | some t => t.loc.shift t.lexeme.length
  | none => ⟨"<input>", 1, 1, 0⟩

def ofTokens (ts : List Token) : Stream :=
  match ts.getLast? with
  | some t =>
    if h : t.kind = .finish then ⟨ts.dropLast, t, h⟩
    else ⟨ts, .finish (endOf ts), rfl⟩
  | none => ⟨ts, .finish (endOf ts), rfl⟩

def tokens (s : Stream) : List Token := s.body ++ [s.closing]

def size (s : Stream) : Nat := s.tokens.length

/-- The token at an index; past the end stands the closing one. -/
def tokenAt (s : Stream) (i : Nat) : Token := (s.body.drop i).headD s.closing

end Stream

end LambdaSyntax
