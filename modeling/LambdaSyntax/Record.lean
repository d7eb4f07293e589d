/-
  LambdaSyntax.Record — nested records: fields in order, each with a text, a number or
  truth value, or a record of its own; and their JSON text.

  The JSON text has one field a line, two blanks of indentation a level, and escapes only
  what a JSON string cannot hold. A record with a number of too many digits has none
  (`json?`).
-/

import LambdaSyntax.Scalar
import LambdaSyntax.Text.Quoted

namespace LambdaSyntax

/-- A record is its first field and the rest. -/
inductive Record where
  | nil
  | text (key value : String) (rest : Record)
  | scalar (key : String) (value : Scalar) (rest : Record)
  | sub (key : String) (value rest : Record)
  deriving DecidableEq, Repr

namespace Record

/-! ## JSON -/

def jsonEscape (c : Char) : List Char :=
  if c = '"' then ['\\', '"']
  else if c = '\\' then ['\\', '\\']
  else if c = '\n' then ['\\', 'n']
  else if c = '\r' then ['\\', 'r']
  else if c = '\t' then ['\\', 't']
  else if c = '\x08' then ['\\', 'b']
  else if c = '\x0c' then ['\\', 'f']
  else if c.toNat < 0x20 then '\\' :: 'u' :: Text.hex 4 c.toNat
  else [c]

def jsonText (s : String) : String :=
  "\"" ++ String.ofList (s.toList.flatMap jsonEscape) ++ "\""

def jsonScalar : Scalar → String
  | .number n => toString n
  | .truth b => if b then "true" else "false"

def indent (depth : Nat) : String := String.ofList (List.replicate (2 * depth) ' ')

def braced (depth : Nat) (fields : List String) : String :=
  if fields.isEmpty then "\x7b\x7d"
  else "\x7b\n" ++ String.intercalate ",\n" (fields.map (indent (depth + 1) ++ ·)) ++ "\n"
    ++ indent depth ++ "\x7d"

/-- The fields of a record that stands `depth` levels deep. -/
def jsonFields (depth : Nat) : Record → List String
  | nil => []
  | text k v rest => (jsonText k ++ ": " ++ jsonText v) :: jsonFields depth rest
  | scalar k v rest => (jsonText k ++ ": " ++ jsonScalar v) :: jsonFields depth rest
  | sub k v rest =>
    (jsonText k ++ ": " ++ braced (depth + 1) (jsonFields (depth + 1) v)) :: jsonFields depth rest

def json (r : Record) : String := braced 0 (jsonFields 0 r)

/-- Has no number in the record too many digits to be written? -/
def isShort : Record → Bool
  | nil => true
  | text _ _ rest => isShort rest
  | scalar _ v rest => v.isShort && isShort rest
  | sub _ v rest => isShort v && isShort rest

def json? (r : Record) : Option String := if r.isShort then some r.json else none

/-! ## Comparing -/

/-- Equal fields in the same order; a truth value equals the number it counts as. -/
def agrees : Record → Record → Bool
  | nil, nil => true
  | text k v rest, text k' v' rest' => k = k' && v = v' && agrees rest rest'
  | scalar k v rest, scalar k' v' rest' => k = k' && v.toInt = v'.toInt && agrees rest rest'
  | sub k v rest, sub k' v' rest' => k = k' && agrees v v' && agrees rest rest'
  | _, _ => false

end Record

end LambdaSyntax
