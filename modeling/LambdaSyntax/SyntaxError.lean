/-
  LambdaSyntax.SyntaxError — why a list of tokens is refused: the cause, the token it was
  noticed at, and that token's index.

  Where a token of the wrong kind stands, or the input ends, the error holds the set of
  kinds that would have been accepted. A literal may denote a number that is out of range
  or be no literal at all. An input may nest more levels than the limit allows.

  The message names a limit that was passed. A limit of too many digits cannot be written,
  and then there is no message (`message?`).
-/

import LambdaSyntax.Diagnostic
import LambdaSyntax.Hint.Missing
import LambdaSyntax.Text.Integer

namespace LambdaSyntax

inductive SyntaxError where
  | unexpected (expected : KindSet) (found : Token) (position : Int)
  | unexpectedEnd (expected : KindSet) (found : Token) (position : Int)
  | overflow (found : Token) (position : Int)
  | invalidLiteral (found : Token) (position : Int) (reason : String)
  | tooDeep (found : Token) (position : Int) (limit : Int)
  deriving DecidableEq, Repr

namespace SyntaxError

def token : SyntaxError → Token
  | unexpected _ t _ | unexpectedEnd _ t _ | overflow t _ | invalidLiteral t _ _ | tooDeep t _ _ => t

def position : SyntaxError → Int
  | unexpected _ _ p | unexpectedEnd _ _ p | overflow _ p | invalidLiteral _ p _ | tooDeep _ p _ => p

def expected : SyntaxError → KindSet
  | unexpected ks _ _ | unexpectedEnd ks _ _ => ks
  | _ => ∅

def code : SyntaxError → String
  | unexpected .. => "P001"
  | unexpectedEnd .. => "P010"
  | overflow .. => "P013"
  | invalidLiteral .. => "P005"
  | tooDeep .. => "P014"

/-- A refused token by its kind, and by its text where the kind has many texts. -/
def naming (t : Token) : String :=
  if t.kind = .identifier ∨ t.kind = .integer then
    t.kind.description ++ " '" ++ t.lexeme ++ "'"
  else t.kind.description

def nestedDeeper (limit : String) : String := "Expression nested deeper than " ++ limit ++ " levels"

def headline : SyntaxError → String
  | unexpected _ t _ => "Unexpected " ++ naming t
  | unexpectedEnd ks _ _ => "Unexpected end of input, expected " ++ Hint.oneOf ks
  | overflow t _ => "Integer literal '" ++ t.lexeme ++ "' is out of range"
  | invalidLiteral t _ _ => "Invalid literal: '" ++ t.lexeme ++ "'"
  | tooDeep _ _ limit => nestedDeeper (toString limit)

def help : SyntaxError → String
  | unexpected ks _ _ => "Expected " ++ Hint.oneOf ks ++ " at this position."
  | unexpectedEnd ks _ _ =>
    "The parser reached the end of the input while expecting " ++ Hint.oneOf ks ++ "."
  | overflow .. =>
    "Integer literals must fit in a signed 64-bit integer (at most 9223372036854775807)."
  | invalidLiteral _ _ reason => reason
  | tooDeep .. => "Deeply nested input exceeds the parser's nesting limit."

def suggestions : SyntaxError → Option (List String)
  | unexpected ks t _ => some (Hint.missing ks (some t) ++ Hint.unexpected t)
  | unexpectedEnd ks t _ => some (Hint.missing ks (some t))
  | overflow .. | invalidLiteral .. => none
  | tooDeep .. => some ["Reduce the nesting depth", "Raise the parser's max_depth"]

def diagnostic (e : SyntaxError) : Diagnostic where
  message := e.headline
  loc := e.token.loc
  severity := "error"
  code := some e.code
  help := some e.help
  suggestions := e.suggestions

def message (e : SyntaxError) : String := e.diagnostic.render

def headline? : SyntaxError → Option String
  | tooDeep _ _ limit => (Text.numeral? limit).map nestedDeeper
  | e => some e.headline

def message? (e : SyntaxError) : Option String :=
  e.headline?.map fun headline => Diagnostic.render { e.diagnostic with message := headline }

end SyntaxError

end LambdaSyntax
