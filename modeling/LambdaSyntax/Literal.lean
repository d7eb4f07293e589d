/-
  LambdaSyntax.Literal — what literal tokens denote.

  A number is the decimal value of its lexeme, which has to consist of ASCII digits; zeros
  in front do not count. It has to fit a signed word of 64 bits. A lexeme with more digits
  than the largest such number is refused before its value is worked out.
-/

import LambdaSyntax.SyntaxError

namespace LambdaSyntax.Literal

/-- Two to the sixty-third, less one. -/
def largest : Nat := 9223372036854775807

/-- The number of digits of `largest`. -/
def largestDigits : Nat := 19

/-- The value of a row of digits. -/
def decimal (cs : List Char) : Nat := Nat.ofDigitChars 10 cs 0

def isDigits (cs : List Char) : Bool := !cs.isEmpty && cs.all Char.isDigit

/-- A row of digits with the value `n`, which fits. -/
def IsNumber (cs : List Char) (n : Nat) : Prop := isDigits cs ∧ decimal cs = n ∧ n ≤ largest

def significant (cs : List Char) : List Char := cs.dropWhile (· = '0')

def integer (t : Token) (position : Int) : Except SyntaxError Nat :=
  let cs := t.lexeme.toList
  if isDigits cs = false then
    .error (.invalidLiteral t position "Integer literals consist of ASCII digits only.")
  else if largestDigits < (significant cs).length then .error (.overflow t position)
  else if largest < decimal (significant cs) then .error (.overflow t position)
  else .ok (decimal (significant cs))

def boolean (t : Token) (position : Int) : Except SyntaxError Bool :=
  match t.kind with
  | .kwTrue => .ok true
  | .kwFalse => .ok false
  | _ => .error (.invalidLiteral t position "Boolean literals are 'true' and 'false'.")

end LambdaSyntax.Literal
