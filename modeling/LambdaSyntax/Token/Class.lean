/-
  LambdaSyntax.Token.Class — the lexical classes, by whole lexemes.

  `classOf? cs` is the kind of the lexeme that `cs` is from end to end, if it is one: a row
  of digits, a word, which is a keyword or an identifier, or an operator. It says nothing of
  how a text is cut into lexemes.
-/

import LambdaSyntax.Literal
import LambdaSyntax.Token.Lexeme

namespace LambdaSyntax

def classOf? (cs : List Char) : Option Kind :=
  if Literal.isDigits cs then some .integer
  else if isWord cs then some ((spelled? Kind.keywords cs).getD .identifier)
  else spelled? Kind.operators cs

end LambdaSyntax
