/-
  LambdaSyntax.Token.Scanner — a scan that is driven step by step.

  A `Scanner` stands somewhere in its text and keeps the tokens and errors of its last
  whole scan. `nextToken` reads one token where the scanner stands, without passing over
  blanks first and without recording it; at a character where no lexeme starts it answers
  the error and stays. No step moves past the end of the text.
-/

import LambdaSyntax.Token.Scan

namespace LambdaSyntax

structure Scanner where
  file : String
  source : List Char
  position : Position
  tokens : List Token
  errors : List LexicalError
  deriving DecidableEq, Repr

namespace Scanner

def start (file source : String) : Scanner := ⟨file, source.toList, .origin, [], []⟩

/-- What is still to come. -/
def rest (s : Scanner) : List Char := s.source.drop s.position.offset

def pass (n : Nat) (s : Scanner) : Scanner :=
  { s with position := s.position.pass (s.rest.take n) }

inductive Step where
  | tokenize
  | nextToken
  | skipBlank
  | advance
  | advanceBy (n : Int)
  | hasErrors
  deriving DecidableEq, Repr

inductive Answer where
  | nothing
  | tokens (ts : List Token)
  | token (t : Token)
  | error (e : LexicalError)
  | truth (b : Bool)
  deriving DecidableEq, Repr

/-- Starts over and scans the whole text. -/
def scanAll (s : Scanner) : Scanner :=
  let scan := Scan.scanFrom s.file 0 .origin s.source
  { s with position := Position.origin.pass s.source, tokens := scan.tokens, errors := scan.errors }

def nextToken (s : Scanner) : Answer × Scanner :=
  match s.rest with
  | [] => (.nothing, s)
  | c :: cs =>
    match Lexeme.first? (c :: cs) with
    | some l => (.token (l.token (s.position.within s.file)), s.pass l.chars.length)
    | none => (.error ⟨c, s.position.within s.file⟩, s)

def step (s : Scanner) : Step → Answer × Scanner
  | .tokenize => (.tokens s.scanAll.tokens, s.scanAll)
  | .nextToken => s.nextToken
  | .skipBlank => (.nothing, s.pass (s.rest.takeWhile Text.isBlank).length)
  | .advance => (.nothing, s.pass 1)
  | .advanceBy n => (.nothing, s.pass n.toNat)
  | .hasErrors => (.truth (!s.errors.isEmpty), s)

def run (s : Scanner) : List Step → Scanner
  | [] => s
  | x :: xs => (s.step x).2.run xs

end Scanner

end LambdaSyntax
