/-
  LambdaSyntax.Tree.Basic — expressions and types as trees.

  One family of trees holds both: seven forms of expression and three of type. Every node
  carries a mark of some type `σ`; a tree read from text is marked with spans, one built by
  hand with nothing (`Tree Unit`). `Tree.bare` forgets the marks.

  A literal holds a number or a truth value and, apart from it, the name of its sort. Of a
  node, `Tree.label` is what two equal nodes share: the form and the fields that are not
  trees; of a literal's value it keeps what it counts as. Nodes of one label have equally
  many children.
-/

import LambdaSyntax.Scalar

namespace LambdaSyntax

inductive ArithOp where
  | add
  | sub
  | mul
  | div
  deriving DecidableEq, Repr

def ArithOp.symbol : ArithOp → String
  | add => "+"
  | sub => "-"
  | mul => "*"
  | div => "/"

/-- An operator as a member of its family. -/
def ArithOp.detail : ArithOp → String
  | add => "<ArithOp.ADD: '+'>"
  | sub => "<ArithOp.SUB: '-'>"
  | mul => "<ArithOp.MUL: '*'>"
  | div => "<ArithOp.DIV: '/'>"

inductive CompareOp where
  | less
  | equal
  | greater
  deriving DecidableEq, Repr

def CompareOp.symbol : CompareOp → String
  | less => "<"
  | equal => "=="
  | greater => ">"

def CompareOp.detail : CompareOp → String
  | less => "<CmpOp.LT: '<'>"
  | equal => "<CmpOp.EQ: '=='>"
  | greater => "<CmpOp.GT: '>'>"

inductive Tree (σ : Type) where
  | var (name : String) (mark : σ)
  | literal (value : Scalar) (sort : String) (mark : σ)
  | arith (op : ArithOp) (left right : Tree σ) (mark : σ)
  | compare (op : CompareOp) (left right : Tree σ) (mark : σ)
  | apply (function argument : Tree σ) (mark : σ)
  | cond (condition yes no : Tree σ) (mark : σ)
  | func (param : String) (domain codomain body : Tree σ) (mark : σ)
  | int (mark : σ)
  | bool (mark : σ)
  | arrow (domain codomain : Tree σ) (mark : σ)
  deriving DecidableEq, Repr

/-- What tells a node from others, its children apart. -/
inductive Label where
  | var (name : String)
  | literal (value : Int) (sort : String)
  | arith (op : ArithOp)
  | compare (op : CompareOp)
  | apply
  | cond
  | func (param : String)
  | int
  | bool
  | arrow
  deriving DecidableEq, Repr

namespace Tree

variable {σ τ : Type}

def mark : Tree σ → σ
  | var _ m | literal _ _ m | arith _ _ _ m | compare _ _ _ m | apply _ _ m | cond _ _ _ m
  | func _ _ _ _ m | int m | bool m | arrow _ _ m => m

def children : Tree σ → List (Tree σ)
  | var .. | literal .. | int _ | bool _ => []
  | arith _ l r _ | compare _ l r _ | apply l r _ | arrow l r _ => [l, r]
  | cond a b c _ | func _ a b c _ => [a, b, c]

def label : Tree σ → Label
  | var x _ => .var x
  | literal v s _ => .literal v.toInt s
  | arith op _ _ _ => .arith op
  | compare op _ _ _ => .compare op
  | apply _ _ _ => .apply
  | cond _ _ _ _ => .cond
  | func x _ _ _ _ => .func x
  | int _ => .int
  | bool _ => .bool
  | arrow _ _ _ => .arrow

/-- The number of nodes. -/
def size : Tree σ → Nat
  | var .. | literal .. | int _ | bool _ => 1
  | arith _ l r _ | compare _ l r _ | apply l r _ | arrow l r _ => l.size + r.size + 1
  | cond a b c _ | func _ a b c _ => a.size + b.size + c.size + 1

def map (f : σ → τ) : Tree σ → Tree τ
  | var x m => var x (f m)
  | literal v s m => literal v s (f m)
  | arith op l r m => arith op (l.map f) (r.map f) (f m)
  | compare op l r m => compare op (l.map f) (r.map f) (f m)
  | apply l r m => apply (l.map f) (r.map f) (f m)
  | cond a b c m => cond (a.map f) (b.map f) (c.map f) (f m)
  | func x a b c m => func x (a.map f) (b.map f) (c.map f) (f m)
  | int m => int (f m)
  | bool m => bool (f m)
  | arrow l r m => arrow (l.map f) (r.map f) (f m)

def bare (t : Tree σ) : Tree Unit := t.map fun _ => ()

/-- The name of a node's form in records. -/
def form : Tree σ → String
  | var .. => "Var"
  | literal .. => "Literal"
  | arith .. => "ArithBinOp"
  | compare .. => "CmpBinOp"
  | apply .. => "Application"
  | cond .. => "If"
  | func .. => "Fun"
  | int _ => "Int"
  | bool _ => "Bool"
  | arrow .. => "Arrow"

/-- The name of a node's constructor: as its form, but types say that they are types. -/
def constructor : Tree σ → String
  | int _ => "IntType"
  | bool _ => "BoolType"
  | arrow .. => "ArrowType"
  | t => t.form

/-- The sizes of some trees taken together. -/
def totalSize : List (Tree σ) → Nat
  | [] => 0
  | t :: ts => t.size + totalSize ts

@[simp] theorem totalSize_append (ts us : List (Tree σ)) :
    totalSize (ts ++ us) = totalSize ts + totalSize us := by
  induction ts with
  | nil => simp [totalSize]
  | cons t ts ih => simp only [List.cons_append, totalSize, ih]; omega

theorem size_eq (t : Tree σ) : t.size = totalSize t.children + 1 := by
  cases t <;> simp [size, children, totalSize] <;> omega

end Tree

end LambdaSyntax
