/-
  LambdaSyntax.Hint.Missing — what may be missing or too much where a token was refused.

  `missing` looks at the kinds that were expected: five of them have a phrase of their own,
  and when the refused token is an identifier, the keywords among them that it may be a
  misspelling of are offered. `unexpected` looks at the refused token alone. `oneOf` lists
  what was expected in words.
-/

import LambdaSyntax.Hint.Spelling
import LambdaSyntax.Token.Basic

namespace LambdaSyntax.Hint

def comparisons : KindSet := .ofList [.less, .equal, .greater]

/-- The kinds whose absence has a phrase, in the order the phrases are given. -/
def phrases : List (Kind × String) :=
  [(.rightParen, "Add a closing parenthesis ')'"),
   (.kwThen, "Add 'then' after the condition"),
   (.kwElse, "Add an 'else' branch; every 'if' needs one"),
   (.kwIs, "Add 'is' between the return type and the function body"),
   (.colon, "Add a colon ':' before the type annotation")]

def didYouMean (keyword : String) : String := "Did you mean '" ++ keyword ++ "'?"

/-- The spellings of the expected keywords. -/
def expectedKeywords (expected : KindSet) : List String :=
  (Kind.keywords.filter (· ∈ expected)).filterMap Kind.spelling?

def misspelled (expected : KindSet) (found : Token) : List String :=
  if found.kind = .identifier then
    (nearest found.lexeme (expectedKeywords expected)).map didYouMean
  else []

def missing (expected : KindSet) (found : Option Token) : List String :=
  (phrases.filter (·.1 ∈ expected)).map (·.2) ++ (found.map (misspelled expected)).getD []

def unexpected (found : Token) : List String :=
  if found.kind ∈ comparisons then
    ["Comparisons do not chain; parenthesize one comparison, e.g. '(a < b) == c'"]
  else if found.kind = .kwIf ∨ found.kind = .kwFun then
    ["Wrap the '" ++ found.lexeme ++ "' expression in parentheses when it is an operand"]
  else if found.kind = .rightParen then ["Remove the unmatched ')'"]
  else []

/-- Alternatives in a row, the last one after `or`. -/
def alternatives : List String → String
  | [] => "nothing"
  | [x] => x
  | [x, y] => x ++ " or " ++ y
  | x :: xs => x ++ ", " ++ alternatives xs

def oneOf (expected : KindSet) : String := alternatives (expected.toList.map Kind.description)

end LambdaSyntax.Hint
