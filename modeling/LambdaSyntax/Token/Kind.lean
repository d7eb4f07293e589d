/-
  LambdaSyntax.Token.Kind — the twenty-three kinds of token, and sets of them.

  Nine keywords and eleven operators have one spelling each (`Kind.spelling?`); whole
  numbers and identifiers have many; `finish` marks the end of a text and has none.

  The order of `Kind.all` is the order in which a set of kinds is listed. A `KindSet` is
  its membership test, so two sets with the same members are equal.
-/

namespace LambdaSyntax

inductive Kind where
  | integer
  | kwTrue
  | kwFalse
  | identifier
  | kwIf
  | kwThen
  | kwElse
  | kwFun
  | kwIs
  | kwInt
  | kwBool
  | times
  | divide
  | plus
  | minus
  | less
  | equal
  | greater
  | arrow
  | leftParen
  | rightParen
  | colon
  | finish
  deriving DecidableEq, Repr, Inhabited

namespace Kind

def all : List Kind :=
  [integer, kwTrue, kwFalse, identifier, kwIf, kwThen, kwElse, kwFun, kwIs, kwInt, kwBool, times,
   divide, plus, minus, less, equal, greater, arrow, leftParen, rightParen, colon, finish]

theorem mem_all (k : Kind) : k ∈ all := by cases k <;> decide

def keywords : List Kind := [kwIf, kwThen, kwElse, kwFun, kwIs, kwTrue, kwFalse, kwInt, kwBool]

def operators : List Kind :=
  [plus, minus, times, divide, less, equal, greater, arrow, leftParen, rightParen, colon]

/-- The one text of a keyword or an operator. -/
def spelling? : Kind → Option String
  | kwIf => some "if"
  | kwThen => some "then"
  | kwElse => some "else"
  | kwFun => some "fun"
  | kwIs => some "is"
  | kwTrue => some "true"
  | kwFalse => some "false"
  | kwInt => some "int"
  | kwBool => some "bool"
  | plus => some "+"
  | minus => some "-"
  | times => some "*"
  | divide => some "/"
  | less => some "<"
  | equal => some "=="
  | greater => some ">"
  | arrow => some "->"
  | leftParen => some "("
  | rightParen => some ")"
  | colon => some ":"
  | integer | identifier | finish => none

def keywordSpellings : List String := keywords.filterMap spelling?

/-- The name of a kind in listings of tokens. -/
def name : Kind → String
  | integer => "INTEGER"
  | kwTrue => "TRUE"
  | kwFalse => "FALSE"
  | identifier => "IDENTIFIER"
  | kwIf => "IF"
  | kwThen => "THEN"
  | kwElse => "ELSE"
  | kwFun => "FUN"
  | kwIs => "IS"
  | kwInt => "INT"
  | kwBool => "BOOL"
  | times => "MULTIPLY"
  | divide => "DIVIDE"
  | plus => "PLUS"
  | minus => "MINUS"
  | less => "LESS_THAN"
  | equal => "EQUAL"
  | greater => "GREATER_THAN"
  | arrow => "ARROW"
  | leftParen => "LEFT_PAREN"
  | rightParen => "RIGHT_PAREN"
  | colon => "COLON"
  | finish => "EOF"

def named? (s : String) : Option Kind := all.find? (·.name = s)

/-- The place of a kind in the listing order, from one. -/
def order (k : Kind) : Nat := all.idxOf k + 1

/-- What a message calls a token of this kind. -/
def description (k : Kind) : String :=
  match k with
  | integer => "integer literal"
  | identifier => "identifier"
  | finish => "end of input"
  | k => "'" ++ k.spelling?.getD k.name ++ "'"

end Kind

/-! ## Sets of kinds -/

structure KindSet where
  has : Kind → Bool

namespace KindSet

instance : Membership Kind KindSet := ⟨fun s k => s.has k = true⟩

instance (k : Kind) (s : KindSet) : Decidable (k ∈ s) := inferInstanceAs (Decidable (s.has k = true))

def ofList (ks : List Kind) : KindSet := ⟨fun k => ks.contains k⟩

def empty : KindSet := ⟨fun _ => false⟩

instance : EmptyCollection KindSet := ⟨empty⟩

instance : Inhabited KindSet := ⟨empty⟩

def single (k : Kind) : KindSet := ⟨fun j => j = k⟩

instance : Union KindSet := ⟨fun s t => ⟨fun k => s.has k || t.has k⟩⟩

/-- The members in listing order. -/
def toList (s : KindSet) : List Kind := Kind.all.filter s.has

@[ext] theorem ext {s t : KindSet} (h : ∀ k, k ∈ s ↔ k ∈ t) : s = t := by
  cases s; cases t
  congr 1
  funext k
  exact Bool.eq_iff_iff.mpr (h k)

theorem mem_iff {s : KindSet} {k : Kind} : k ∈ s ↔ s.has k = true := Iff.rfl

@[simp] theorem mem_toList {s : KindSet} {k : Kind} : k ∈ s.toList ↔ k ∈ s := by
  rw [toList, List.mem_filter, mem_iff]
  exact and_iff_right (Kind.mem_all k)

@[simp] theorem mem_ofList {ks : List Kind} {k : Kind} : k ∈ ofList ks ↔ k ∈ ks := by
  simp [mem_iff, ofList]

@[simp] theorem mem_union {s t : KindSet} {k : Kind} : k ∈ s ∪ t ↔ k ∈ s ∨ k ∈ t := by
  change ((s.has k || t.has k) = true) ↔ _
  simp [mem_iff]

@[simp] theorem mem_single {k j : Kind} : k ∈ single j ↔ k = j := by
  simp [mem_iff, single]

@[simp] theorem not_mem_empty {k : Kind} : k ∉ (∅ : KindSet) := by
  change ¬ (false = true)
  simp

instance : DecidableEq KindSet := fun s t =>
  decidable_of_iff (s.toList = t.toList)
    ⟨fun h => ext fun k => by rw [← mem_toList, h, mem_toList], fun h => by rw [h]⟩

instance : Repr KindSet := ⟨fun s _ => repr s.toList⟩

end KindSet

end LambdaSyntax
