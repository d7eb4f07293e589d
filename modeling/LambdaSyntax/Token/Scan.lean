/-
  LambdaSyntax.Token.Scan — a text cut into tokens.

  The scan passes over blanks, takes the longest lexeme wherever one starts, and records a
  character at which none starts as an error and passes over it. So one scan finds all bad
  characters, and the tokens are those that stand between them. The list of tokens is
  closed by a `finish` token at the end of the text.

  `Position` counts what has been passed: characters, lines, and characters of the line.
  Only a line feed ends a line.
-/

import LambdaSyntax.LexicalError
import LambdaSyntax.Token.Lexeme

namespace LambdaSyntax

structure Position where
  offset : Nat
  line : Nat
  column : Nat
  deriving DecidableEq, Repr, Inhabited

namespace Position

def origin : Position := ⟨0, 1, 1⟩

def step (p : Position) (c : Char) : Position :=
  if c = '\n' then ⟨p.offset + 1, p.line + 1, 1⟩ else ⟨p.offset + 1, p.line, p.column + 1⟩

/-- The position after passing over `cs`. -/
def pass (p : Position) (cs : List Char) : Position := cs.foldl step p

def within (p : Position) (file : String) : Location := ⟨file, p.line, p.column, p.offset⟩

end Position

structure Scan where
  tokens : List Token
  errors : List LexicalError
  deriving DecidableEq, Repr, Inhabited

namespace Scan

def addToken (t : Token) (s : Scan) : Scan := { s with tokens := t :: s.tokens }

def addError (e : LexicalError) (s : Scan) : Scan := { s with errors := e :: s.errors }

def hasErrors (s : Scan) : Bool := !s.errors.isEmpty

/-- Scans the rest of a text from a position on. `skip` is the number of characters to pass
    over first: the part of the lexeme just taken that is still to come. -/
def scanFrom (file : String) : Nat → Position → List Char → Scan
  | _, p, [] => ⟨[.finish (p.within file)], []⟩
  | skip + 1, p, c :: cs => scanFrom file skip (p.step c) cs
  | 0, p, c :: cs =>
    if Text.isBlank c then scanFrom file 0 (p.step c) cs
    else match Lexeme.first? (c :: cs) with
      | some l => (scanFrom file (l.chars.length - 1) (p.step c) cs).addToken (l.token (p.within file))
      | none => (scanFrom file 0 (p.step c) cs).addError ⟨c, p.within file⟩

def ofText (file source : String) : Scan := scanFrom file 0 .origin source.toList

end Scan

/-- The tokens of a text, or its first bad character. -/
def tokenize (file source : String) : Except LexicalError (List Token) :=
  let scan := Scan.ofText file source
  match scan.errors with
  | e :: _ => .error e
  | [] => .ok scan.tokens

end LambdaSyntax
