/-
  LambdaSyntax.Token.Lexeme — the words of the language, and the longest one that opens a
  text.

  There are three classes: a non-empty run of digits, a word (a letter or an underscore,
  then letters, digits and underscores), and an operator. Letters and digits are those of
  ASCII. A word that is the spelling of a keyword is that keyword, any other word is an
  identifier. The first character settles the class, and within it the longest lexeme is
  taken, so `->` is one operator and `thenx` one identifier.
-/

import LambdaSyntax.Token.Basic

namespace LambdaSyntax

structure Lexeme where
  kind : Kind
  chars : List Char
  deriving DecidableEq, Repr

def isWordStart (c : Char) : Bool := c == '_' || c.isAlpha

def isWordChar (c : Char) : Bool := c == '_' || c.isAlphanum

/-- Is it a word from end to end? -/
def isWord : List Char → Bool
  | [] => false
  | c :: cs => isWordStart c && cs.all isWordChar

/-- The member of `table` that is spelled so. -/
def spelled? (table : List Kind) (cs : List Char) : Option Kind :=
  table.find? fun k => k.spelling? = some (String.ofList cs)

namespace Lexeme

def ofWord (cs : List Char) : Lexeme := ⟨(spelled? Kind.keywords cs).getD .identifier, cs⟩

def operator? (cs : List Char) : Option Lexeme := (spelled? Kind.operators cs).map (⟨·, cs⟩)

/-- The longest lexeme that opens a text. -/
def first? : List Char → Option Lexeme
  | [] => none
  | c :: cs =>
    if c.isDigit then some ⟨.integer, (c :: cs).takeWhile Char.isDigit⟩
    else if isWordStart c then some (ofWord ((c :: cs).takeWhile isWordChar))
    else (operator? ((c :: cs).take 2)).or (operator? [c])

def value (l : Lexeme) : Payload :=
  match l.kind with
  | .kwTrue => .truth true
  | .kwFalse => .truth false
  | .identifier => .name (String.ofList l.chars)
  | _ => .none

def token (l : Lexeme) (loc : Location) : Token := ⟨l.kind, String.ofList l.chars, l.value, loc⟩

end Lexeme

end LambdaSyntax
