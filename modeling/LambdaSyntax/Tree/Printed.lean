/-
  LambdaSyntax.Tree.Printed — two texts of a tree.

  `printed` is the short form for people: operators and applications in parentheses with
  the operator first, functions with a λ and their types, and types as they are written in
  a source, where an arrow to the left of an arrow stands in parentheses.

  `detail` writes every node as its constructor with named fields, so it holds all there
  is to a tree but the marks.

  Both are folds: `printedNode` and `detailNode` put a node's text together from those of
  its children. They write numbers of any length. `printed?` and `detail?` are the texts that
  can be had: the fold ends without one at a literal whose number has too many digits.
-/

import LambdaSyntax.Text.Quoted
import LambdaSyntax.Tree.Fold

namespace LambdaSyntax.Tree

variable {σ : Type}

/-! ## The short form -/

def isArrow : Tree σ → Bool
  | arrow .. => true
  | _ => false

def parens (s : String) : String := "(" ++ s ++ ")"

/-- A literal of sort `boolean` shows whether its value is zero, any other the value. -/
def literalText (v : Scalar) (sort : String) : String :=
  if sort = "boolean" then if v.toInt = 0 then "false" else "true" else v.text

def printedNode : Tree σ → List String → String
  | var x _, _ => x
  | literal v sort _, _ => literalText v sort
  | arith op _ _ _, [l, r] => parens (op.symbol ++ " " ++ l ++ " " ++ r)
  | compare op _ _ _, [l, r] => parens (op.symbol ++ " " ++ l ++ " " ++ r)
  | apply _ _ _, [f, a] => parens (f ++ " " ++ a)
  | cond _ _ _ _, [c, a, b] => parens ("if " ++ c ++ " " ++ a ++ " " ++ b)
  | func x _ _ _ _, [p, r, b] =>
    parens ("λ " ++ parens (x ++ ": " ++ p) ++ ": " ++ r ++ " " ++ b)
  | int _, _ => "int"
  | bool _, _ => "bool"
  | arrow l _ _, [p, r] => (if l.isArrow then parens p else p) ++ " -> " ++ r
  | _, _ => ""

def printed (t : Tree σ) : String := t.fold printedNode

/-- A literal of sort `boolean` does not show its number, so it has its text in any case. -/
def literalText? (v : Scalar) (sort : String) : Option String :=
  if sort = "boolean" then some (literalText v sort) else v.text?

def printedNode? (t : Tree σ) (parts : List String) : Option String :=
  match t with
  | literal v sort _ => literalText? v sort
  | t => some (printedNode t parts)

def printed? (t : Tree σ) : Option String := t.foldM printedNode?

/-! ## The full form -/

/-- A constructor with its named fields. -/
def written (name : String) (fields : List (String × String)) : String :=
  name ++ parens (String.intercalate ", " (fields.map fun f => f.1 ++ "=" ++ f.2))

def detailNode (t : Tree σ) (parts : List String) : String :=
  written t.constructor <|
    match t, parts with
    | var x _, _ => [("name", Text.quoted x)]
    | literal v sort _, _ => [("value", v.text), ("literal_type", Text.quoted sort)]
    | arith op _ _ _, [l, r] => [("op", op.detail), ("left", l), ("right", r)]
    | compare op _ _ _, [l, r] => [("op", op.detail), ("left", l), ("right", r)]
    | apply _ _ _, [f, a] => [("function", f), ("argument", a)]
    | cond _ _ _ _, [c, a, b] => [("condition", c), ("then_branch", a), ("else_branch", b)]
    | func x _ _ _ _, [p, r, b] =>
      [("param_name", Text.quoted x), ("param_type", p), ("return_type", r), ("body", b)]
    | arrow _ _ _, [p, r] => [("param", p), ("result", r)]
    | _, _ => []

def detail (t : Tree σ) : String := t.fold detailNode

def detailNode? (t : Tree σ) (parts : List String) : Option String :=
  match t with
  | literal v sort _ =>
    v.text?.map fun value => written t.constructor [("value", value), ("literal_type", Text.quoted sort)]
  | t => some (detailNode t parts)

def detail? (t : Tree σ) : Option String := t.foldM detailNode?

end LambdaSyntax.Tree
