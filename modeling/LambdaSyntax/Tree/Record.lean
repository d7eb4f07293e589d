/-
  LambdaSyntax.Tree.Record — trees as nested records, and trees read from them.

  The record of a node names its form first and then its fields in source order; marks are
  left out. `ofRecord` reads a tree back: it finds fields by name, so their order does not
  matter, and refuses a record whose form is unknown or lacks a field.

  Two records are the same node when they read as the same tree; those that are no trees
  have to agree field by field.
-/

import LambdaSyntax.Record
import LambdaSyntax.Tree.Same

namespace LambdaSyntax.Tree

variable {σ : Type}

def recordNode (t : Tree σ) (parts : List Record) : Record :=
  .text "node" t.form <|
    match t, parts with
    | var x _, _ => .text "name" x .nil
    | literal v sort _, _ => .text "type" sort (.scalar "value" v .nil)
    | arith op _ _ _, [l, r] => .text "op" op.symbol (.sub "left" l (.sub "right" r .nil))
    | compare op _ _ _, [l, r] => .text "op" op.symbol (.sub "left" l (.sub "right" r .nil))
    | apply _ _ _, [f, a] => .sub "function" f (.sub "argument" a .nil)
    | cond _ _ _ _, [c, a, b] => .sub "condition" c (.sub "then" a (.sub "else" b .nil))
    | func x _ _ _ _, [p, r, b] =>
      .text "param_name" x (.sub "param_type" p (.sub "return_type" r (.sub "body" b .nil)))
    | arrow _ _ _, [p, r] => .sub "param" p (.sub "result" r .nil)
    | _, _ => .nil

def toRecord (t : Tree σ) : Record := t.fold recordNode

/-! ## Reading -/

/-- Something that is no tree, by the name of what it is. -/
structure Unprintable where
  name : String
  deriving DecidableEq, Repr

def Unprintable.message (u : Unprintable) : String := "Cannot format " ++ u.name

/-- The fields of a record, its sub-records read as trees. -/
structure Parts where
  texts : List (String × String)
  scalars : List (String × Scalar)
  trees : List (String × Tree Unit)

namespace Parts

def text? (p : Parts) (key : String) : Option String := p.texts.lookup key

def scalar? (p : Parts) (key : String) : Option Scalar := p.scalars.lookup key

def tree? (p : Parts) (key : String) : Option (Tree Unit) := p.trees.lookup key

def arithOp? (p : Parts) : Option ArithOp := do
  let s ← p.text? "op"
  [ArithOp.add, .sub, .mul, .div].find? (·.symbol = s)

def compareOp? (p : Parts) : Option CompareOp := do
  let s ← p.text? "op"
  [CompareOp.less, .equal, .greater].find? (·.symbol = s)

/-- The tree of a node of form `form` with these fields. -/
def tree (p : Parts) (form : String) : Option (Tree Unit) :=
  if form = "Var" then do
    return var (← p.text? "name") ()
  else if form = "Literal" then do
    return literal (← p.scalar? "value") (← p.text? "type") ()
  else if form = "ArithBinOp" then do
    return arith (← p.arithOp?) (← p.tree? "left") (← p.tree? "right") ()
  else if form = "CmpBinOp" then do
    return compare (← p.compareOp?) (← p.tree? "left") (← p.tree? "right") ()
  else if form = "Application" then do
    return apply (← p.tree? "function") (← p.tree? "argument") ()
  else if form = "If" then do
    return cond (← p.tree? "condition") (← p.tree? "then") (← p.tree? "else") ()
  else if form = "Fun" then do
    return func (← p.text? "param_name") (← p.tree? "param_type") (← p.tree? "return_type")
      (← p.tree? "body") ()
  else if form = "Int" then some (int ())
  else if form = "Bool" then some (bool ())
  else if form = "Arrow" then do
    return arrow (← p.tree? "param") (← p.tree? "result") ()
  else none

def assemble (p : Parts) : Except Unprintable (Tree Unit) :=
  let form := (p.text? "node").getD ""
  match p.tree form with
  | some t => .ok t
  | none => .error ⟨form⟩

def ofRecord : Record → Except Unprintable Parts
  | .nil => .ok ⟨[], [], []⟩
  | .text k v rest => do
    let p ← ofRecord rest
    return { p with texts := (k, v) :: p.texts }
  | .scalar k v rest => do
    let p ← ofRecord rest
    return { p with scalars := (k, v) :: p.scalars }
  | .sub k v rest => do
    let t ← (← ofRecord v).assemble
    let p ← ofRecord rest
    return { p with trees := (k, t) :: p.trees }

end Parts

def ofRecord (r : Record) : Except Unprintable (Tree Unit) := do (← Parts.ofRecord r).assemble

def sameNode (r s : Record) : Bool :=
  match ofRecord r, ofRecord s with
  | .ok t, .ok u => t.same u
  | _, _ => r.agrees s

/-- The labels of a record's tree; a record that is no tree has none. -/
def nodeKey (r : Record) : List Label :=
  match ofRecord r with
  | .ok t => t.key
  | .error _ => []

end LambdaSyntax.Tree
