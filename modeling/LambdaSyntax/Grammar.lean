/-
  LambdaSyntax.Grammar — which tokens make which tree.

      expression   if expression then expression else expression
                   fun identifier : type : type is expression
                   comparison
      comparison   sum, or sum < sum, sum == sum, sum > sum
      sum          factor, or sum + factor, sum - factor
      factor       application, or factor * application, factor / application
      application  term, or application term
      term         a number, true, false, an identifier, ( expression )
      type         atomic type, or atomic type -> type
      atomic type  int, bool, ( type )

  `Derives c n ts t` says that the tokens `ts` make the tree `t` as a construct of tier `c`
  in which expressions and types nest at most `n` levels. An expression or a type is a level
  of its own; parentheses leave no node. A number is a row of ASCII digits whose value fits
  a signed word of 64 bits.
-/

import LambdaSyntax.Literal
import LambdaSyntax.Tree.Basic

namespace LambdaSyntax

inductive Tier where
  | expression
  | comparison
  | sum
  | factor
  | application
  | term
  | type
  | atomicType
  deriving DecidableEq, Repr

namespace Grammar

/-- The tiers of the operators of arithmetic. -/
inductive SumOp : Kind → ArithOp → Prop
  | plus : SumOp .plus .add
  | minus : SumOp .minus .sub

inductive FactorOp : Kind → ArithOp → Prop
  | times : FactorOp .times .mul
  | divide : FactorOp .divide .div

inductive ComparisonOp : Kind → CompareOp → Prop
  | less : ComparisonOp .less .less
  | equal : ComparisonOp .equal .equal
  | greater : ComparisonOp .greater .greater

inductive Derives : Tier → Nat → List Token → Tree Unit → Prop
  | cond {n : Nat} {i th el : Token} {cs ys zs : List Token} {c y z : Tree Unit} :
      i.kind = .kwIf → Derives .expression n cs c →
      th.kind = .kwThen → Derives .expression n ys y →
      el.kind = .kwElse → Derives .expression n zs z →
      Derives .expression (n + 1) (i :: cs ++ th :: ys ++ el :: zs) (.cond c y z ())
  | func {n : Nat} {f x c₁ c₂ is : Token} {ps rs bs : List Token} {p r b : Tree Unit} :
      f.kind = .kwFun → x.kind = .identifier →
      c₁.kind = .colon → Derives .type n ps p →
      c₂.kind = .colon → Derives .type n rs r →
      is.kind = .kwIs → Derives .expression n bs b →
      Derives .expression (n + 1) (f :: x :: c₁ :: ps ++ c₂ :: rs ++ is :: bs)
        (.func x.lexeme p r b ())
  | comparison {n : Nat} {ts : List Token} {t : Tree Unit} :
      Derives .comparison n ts t → Derives .expression (n + 1) ts t
  | compare {n : Nat} {o : Token} {op : CompareOp} {ls rs : List Token} {l r : Tree Unit} :
      Derives .sum n ls l → ComparisonOp o.kind op → Derives .sum n rs r →
      Derives .comparison n (ls ++ o :: rs) (.compare op l r ())
  | sum {n : Nat} {ts : List Token} {t : Tree Unit} :
      Derives .sum n ts t → Derives .comparison n ts t
  | add {n : Nat} {o : Token} {op : ArithOp} {ls rs : List Token} {l r : Tree Unit} :
      Derives .sum n ls l → SumOp o.kind op → Derives .factor n rs r →
      Derives .sum n (ls ++ o :: rs) (.arith op l r ())
  | factor {n : Nat} {ts : List Token} {t : Tree Unit} :
      Derives .factor n ts t → Derives .sum n ts t
  | mul {n : Nat} {o : Token} {op : ArithOp} {ls rs : List Token} {l r : Tree Unit} :
      Derives .factor n ls l → FactorOp o.kind op → Derives .application n rs r →
      Derives .factor n (ls ++ o :: rs) (.arith op l r ())
  | application {n : Nat} {ts : List Token} {t : Tree Unit} :
      Derives .application n ts t → Derives .factor n ts t
  | apply {n : Nat} {fs as : List Token} {f a : Tree Unit} :
      Derives .application n fs f → Derives .term n as a →
      Derives .application n (fs ++ as) (.apply f a ())
  | term {n : Nat} {ts : List Token} {t : Tree Unit} :
      Derives .term n ts t → Derives .application n ts t
  | integer {n : Nat} {t : Token} {v : Nat} :
      t.kind = .integer → Literal.IsNumber t.lexeme.toList v →
      Derives .term n [t] (.literal (.number v) "integer" ())
  | trueWord {n : Nat} {t : Token} :
      t.kind = .kwTrue → Derives .term n [t] (.literal (.truth true) "boolean" ())
  | falseWord {n : Nat} {t : Token} :
      t.kind = .kwFalse → Derives .term n [t] (.literal (.truth false) "boolean" ())
  | var {n : Nat} {t : Token} :
      t.kind = .identifier → Derives .term n [t] (.var t.lexeme ())
  | group {n : Nat} {l r : Token} {ts : List Token} {t : Tree Unit} :
      l.kind = .leftParen → Derives .expression n ts t → r.kind = .rightParen →
      Derives .term n (l :: ts ++ [r]) t
  | arrow {n : Nat} {o : Token} {ps rs : List Token} {p r : Tree Unit} :
      Derives .atomicType n ps p → o.kind = .arrow → Derives .type n rs r →
      Derives .type (n + 1) (ps ++ o :: rs) (.arrow p r ())
  | atomicType {n : Nat} {ts : List Token} {t : Tree Unit} :
      Derives .atomicType n ts t → Derives .type (n + 1) ts t
  | int {n : Nat} {t : Token} :
      t.kind = .kwInt → Derives .atomicType n [t] (.int ())
  | bool {n : Nat} {t : Token} :
      t.kind = .kwBool → Derives .atomicType n [t] (.bool ())
  | typeGroup {n : Nat} {l r : Token} {ts : List Token} {t : Tree Unit} :
      l.kind = .leftParen → Derives .type n ts t → r.kind = .rightParen →
      Derives .atomicType n (l :: ts ++ [r]) t

end Grammar

end LambdaSyntax
