/-
  LambdaSyntax.Token.Basic — tokens: a kind, the text it was read from, the value that
  text stands for, and its place.

  The reader gives a name to identifiers and a truth value to `true` and `false`. Numbers
  carry no value: what their digits denote, and whether it fits, is decided where a literal
  is read. A token made otherwise may hold a number, and its text writes one of any length.
-/

import LambdaSyntax.Location
import LambdaSyntax.Token.Kind

namespace LambdaSyntax

inductive Payload where
  | none
  | name (s : String)
  | truth (b : Bool)
  | number (n : Int)
  deriving DecidableEq, Repr, Inhabited

def Payload.text : Payload → String
  | .none => "None"
  | .name s => Text.quoted s
  | .truth b => if b then "True" else "False"
  | .number n => toString n

structure Token where
  kind : Kind
  lexeme : String
  value : Payload
  loc : Location
  deriving DecidableEq, Repr, Inhabited

namespace Token

/-- The token that closes a text, at the place just past it. -/
def finish (l : Location) : Token := ⟨.finish, "", .none, l⟩

/-- The short form leaves out a value that says no more than the lexeme. -/
def text (t : Token) : String :=
  if t.value = .none ∨ t.value = .name t.lexeme then
    t.kind.name ++ "(" ++ Text.quoted t.lexeme ++ ")"
  else t.kind.name ++ "(" ++ Text.quoted t.lexeme ++ " -> " ++ t.value.text ++ ")"

def detail (t : Token) : String :=
  "Token(" ++ t.kind.name ++ ", " ++ Text.quoted t.lexeme ++ ", " ++ t.value.text ++ ", "
    ++ t.loc.detail ++ ")"

end Token

end LambdaSyntax
