/-
  LambdaSyntax.Proofs.Levels — how many levels a tree takes when it is written out with no
  more parentheses than it needs.

  `inside t` counts the levels that nest within `t`, its own not among them, and `need c t`
  what a construct of tier `c` takes to be `t`: where `t` binds too loosely for the tier it stands
  in parentheses and is a level of its own. No tokens make `t` with fewer
  (`need_le_of_derives`).
-/

import LambdaSyntax.Grammar
import LambdaSyntax.Tree.Source

namespace LambdaSyntax

namespace Tree

variable {σ : Type}

/-- The levels of a part that may stand in parentheses. -/
def held (needed : Bool) (n : Nat) : Nat := if needed then n + 1 else n

def inside : Tree σ → Nat
  | var .. | literal .. | int _ | bool _ => 0
  | arith op l r _ => max (held (l.rank < op.rank) l.inside) (held (r.rank ≤ op.rank) r.inside)
  | compare _ l r _ => max (held (l.rank < 1) l.inside) (held (r.rank < 1) r.inside)
  | apply f a _ => max (held (f.rank < 3) f.inside) (held (a.rank < 4) a.inside)
  | cond a b c _ | func _ a b c _ => max (a.inside + 1) (max (b.inside + 1) (c.inside + 1))
  | arrow p r _ => max (held p.isArrow p.inside) (r.inside + 1)

def need : Tier → Tree σ → Nat
  | .expression, t | .type, t => t.inside + 1
  | .comparison, t => t.inside
  | .sum, t => held (t.rank < 1) t.inside
  | .factor, t => held (t.rank < 2) t.inside
  | .application, t => held (t.rank < 3) t.inside
  | .term, t => held (t.rank < 4) t.inside
  | .atomicType, t => held t.isArrow t.inside

theorem le_held (b : Bool) (n : Nat) : n ≤ held b n := by
  unfold held
  split <;> omega

theorem held_le (b : Bool) (n : Nat) : held b n ≤ n + 1 := by
  unfold held
  split <;> omega

theorem held_mono {p q : Prop} [Decidable p] [Decidable q] (h : p → q) (n : Nat) : held p n ≤ held q n := by
  by_cases hp : p
  · have hq := h hp
    simp [held, hp, hq]
  · have hn : held p n = n := by simp [held, hp]
    rw [hn]
    exact le_held q n

end Tree

open LambdaSyntax.Tree Grammar

theorem SumOp.rank {k : Kind} {op : ArithOp} (h : SumOp k op) : op.rank = 1 := by cases h <;> rfl

theorem FactorOp.rank {k : Kind} {op : ArithOp} (h : FactorOp k op) : op.rank = 2 := by cases h <;> rfl

theorem need_le_of_derives {c : Tier} {n : Nat} {ts : List Token} {t : Tree Unit} (h : Derives c n ts t) :
    need c t ≤ n := by
  induction h with
  | cond _ _ _ _ _ _ ihc ihy ihz =>
    simp only [need, inside] at *
    omega
  | func _ _ _ _ _ _ _ _ ihp ihr ihb =>
    simp only [need, inside] at *
    omega
  | comparison _ ih =>
    simp only [need] at *
    omega
  | compare _ _ _ ihl ihr => exact Nat.max_le.mpr ⟨ihl, ihr⟩
  | sum _ ih => exact Nat.le_trans (le_held _ _) ih
  | @add n o op ls rs l r _ ho _ ihl ihr =>
    have hr := held_mono (p := r.rank ≤ 1) (q := r.rank < 2) (fun h => by omega) r.inside
    show held (op.rank < 1) (max (held (l.rank < op.rank) l.inside) (held (r.rank ≤ op.rank) r.inside)) ≤ n
    rw [SumOp.rank ho]
    exact Nat.max_le.mpr ⟨ihl, Nat.le_trans hr ihr⟩
  | @factor n ts t _ ih => exact Nat.le_trans (held_mono (fun h => by omega) t.inside) ih
  | @mul n o op ls rs l r _ ho _ ihl ihr =>
    have hr := held_mono (p := r.rank ≤ 2) (q := r.rank < 3) (fun h => by omega) r.inside
    show held (op.rank < 2) (max (held (l.rank < op.rank) l.inside) (held (r.rank ≤ op.rank) r.inside)) ≤ n
    rw [FactorOp.rank ho]
    exact Nat.max_le.mpr ⟨ihl, Nat.le_trans hr ihr⟩
  | @application n ts t _ ih => exact Nat.le_trans (held_mono (fun h => by omega) t.inside) ih
  | apply _ _ ihf iha => exact Nat.max_le.mpr ⟨ihf, iha⟩
  | @term n ts t _ ih => exact Nat.le_trans (held_mono (fun h => by omega) t.inside) ih
  | @group n l r ts t _ _ _ ih => exact Nat.le_trans (held_le _ t.inside) ih
  | @typeGroup n l r ts t _ _ _ ih => exact Nat.le_trans (held_le _ t.inside) ih
  | arrow _ _ _ ihp ihr =>
    simp only [need, inside] at *
    omega
  | @atomicType n ts t _ ih => exact Nat.succ_le_succ (Nat.le_trans (le_held _ t.inside) ih)
  | integer | trueWord | falseWord | var | int | bool => exact Nat.zero_le _

end LambdaSyntax
