/-
  LambdaSyntax.LexicalError — a character at which no lexeme starts.

  The help names the operators that the sign may stand for; failing that it shows the
  character, by its code point when it is not printable.
-/

import LambdaSyntax.Diagnostic
import LambdaSyntax.Hint.Spelling

namespace LambdaSyntax

structure LexicalError where
  char : Char
  loc : Location
  deriving DecidableEq, Repr, Inhabited

namespace LexicalError

def suggestions (e : LexicalError) : List String := Hint.operatorsFor e.char.toString

def help (e : LexicalError) : String :=
  match e.suggestions with
  | s :: ss => "Did you mean " ++ String.intercalate " or " ((s :: ss).map Text.quoted) ++ "?"
  | [] =>
    if Text.isPrintable e.char then
      "The character '" ++ e.char.toString ++ "' is not valid in funlang source code."
    else
      "Non-printable character (Unicode: " ++ Text.codePointName e.char ++ ") is not allowed."

def diagnostic (e : LexicalError) : Diagnostic where
  message := "Invalid character: '" ++ e.char.toString ++ "'"
  loc := e.loc
  severity := "error"
  code := some "L001"
  help := some e.help
  suggestions := some e.suggestions

def message (e : LexicalError) : String := e.diagnostic.render

end LexicalError

end LambdaSyntax
