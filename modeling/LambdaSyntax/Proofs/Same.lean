/-
  LambdaSyntax.Proofs.Same — trees that the comparison with a list of pairs finds the same.

  `plain` is a tree without its marks and with every value as the number it counts as. Two trees
  are the same exactly when they are plainly equal (`same_iff`): what is on the list has to be
  plainly equal pair by pair, and with the labels of a pair its children are as many
  (`sameStack_iff`).
-/

import LambdaSyntax.Tree.Same

namespace LambdaSyntax.Tree

variable {σ τ : Type}

def plain : Tree σ → Tree Unit
  | var x _ => var x ()
  | literal v sort _ => literal (.number v.toInt) sort ()
  | arith op l r _ => arith op l.plain r.plain ()
  | compare op l r _ => compare op l.plain r.plain ()
  | apply f a _ => apply f.plain a.plain ()
  | cond a b c _ => cond a.plain b.plain c.plain ()
  | func x p r b _ => func x p.plain r.plain b.plain ()
  | int _ => int ()
  | bool _ => bool ()
  | arrow p r _ => arrow p.plain r.plain ()

theorem plain_map (f : σ → τ) (t : Tree σ) : (t.map f).plain = t.plain := by
  induction t with
  | arith _ _ _ _ ihl ihr | compare _ _ _ _ ihl ihr | apply _ _ _ ihl ihr | arrow _ _ _ ihl ihr =>
    simp only [map, plain, ihl, ihr]
  | cond _ _ _ _ iha ihb ihc | func _ _ _ _ _ iha ihb ihc => simp only [map, plain, iha, ihb, ihc]
  | _ => rfl

/-- A node is its label and its children. -/
theorem plain_eq_iff {t : Tree σ} {u : Tree τ} :
    t.plain = u.plain ↔ t.label = u.label ∧ t.children.map plain = u.children.map plain := by
  cases t <;> cases u <;> simp [plain, label, children]

theorem length_children {t : Tree σ} {u : Tree τ} (h : t.label = u.label) : t.children.length = u.children.length := by
  cases t <;> cases u <;> simp [label] at h <;> rfl

theorem map_plain_iff {ts : List (Tree σ)} {us : List (Tree τ)} (h : ts.length = us.length) :
    ts.map plain = us.map plain ↔ ∀ p ∈ ts.zip us, p.1.plain = p.2.plain := by
  induction ts generalizing us with
  | nil =>
    obtain rfl := List.length_eq_zero_iff.mp h.symm
    simp
  | cons t ts ih =>
    cases us with
    | nil => cases h
    | cons u us =>
      rw [List.zip_cons_cons, List.forall_mem_cons, ← ih (Nat.succ.inj h)]
      simp

theorem sameStack_iff (pairs : List (Tree σ × Tree τ)) :
    sameStack pairs = true ↔ ∀ p ∈ pairs, p.1.plain = p.2.plain := by
  induction pairs using sameStack.induct with
  | case1 => simp [sameStack]
  | case2 t u rest ih =>
    rw [sameStack, Bool.and_eq_true, decide_eq_true_eq, ih, List.forall_mem_append, List.forall_mem_cons,
      plain_eq_iff, and_assoc]
    refine and_congr_right fun hlabel => and_congr_left' ?_
    rw [map_plain_iff (length_children hlabel)]

theorem same_iff {t : Tree σ} {u : Tree τ} : t.same u = true ↔ t.plain = u.plain := by
  rw [same, sameStack_iff, List.forall_mem_singleton]

theorem same_of_bare {t : Tree σ} {u : Tree τ} (h : t.bare = u.bare) : t.same u = true := by
  rw [same_iff, ← plain_map (fun _ => ()) t, ← plain_map (fun _ => ()) u]
  exact congrArg plain h

end LambdaSyntax.Tree
