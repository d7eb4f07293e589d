/-
  LambdaSyntax.Proofs.Keys — three ways to tell trees apart that agree.

  `Matches` is what it means for two trees to be equal whatever their marks: the same form, the
  same fields, where a truth value counts as a number, and equal children. The comparison with a
  list of pairs finds that out, whether the pairs of a node's children are worked off from the
  first or from the last (`lastFirst_iff`). And so do the keys: a label fixes how many children
  follow, so from the labels in preorder the trees of a list can be told one by one (`keys_eq_iff`).
-/

import LambdaSyntax.Proofs.Same

namespace LambdaSyntax.Tree

variable {σ τ : Type}

inductive Matches : Tree σ → Tree τ → Prop
  | var {x : String} {m : σ} {n : τ} : Matches (var x m) (var x n)
  | literal {v w : Scalar} {sort : String} {m : σ} {n : τ} :
      v.toInt = w.toInt → Matches (literal v sort m) (literal w sort n)
  | arith {op : ArithOp} {l r : Tree σ} {l' r' : Tree τ} {m : σ} {n : τ} :
      Matches l l' → Matches r r' → Matches (arith op l r m) (arith op l' r' n)
  | compare {op : CompareOp} {l r : Tree σ} {l' r' : Tree τ} {m : σ} {n : τ} :
      Matches l l' → Matches r r' → Matches (compare op l r m) (compare op l' r' n)
  | apply {f a : Tree σ} {f' a' : Tree τ} {m : σ} {n : τ} :
      Matches f f' → Matches a a' → Matches (apply f a m) (apply f' a' n)
  | cond {a b c : Tree σ} {a' b' c' : Tree τ} {m : σ} {n : τ} :
      Matches a a' → Matches b b' → Matches c c' → Matches (cond a b c m) (cond a' b' c' n)
  | func {x : String} {p r b : Tree σ} {p' r' b' : Tree τ} {m : σ} {n : τ} :
      Matches p p' → Matches r r' → Matches b b' → Matches (func x p r b m) (func x p' r' b' n)
  | int {m : σ} {n : τ} : Matches (int m) (int n)
  | bool {m : σ} {n : τ} : Matches (bool m) (bool n)
  | arrow {p r : Tree σ} {p' r' : Tree τ} {m : σ} {n : τ} :
      Matches p p' → Matches r r' → Matches (arrow p r m) (arrow p' r' n)

theorem Matches.plain_eq {t : Tree σ} {u : Tree τ} (h : Matches t u) : t.plain = u.plain := by
  induction h with
  | literal hv => simp only [plain, hv]
  | arith _ _ ihl ihr | compare _ _ ihl ihr | apply _ _ ihl ihr | arrow _ _ ihl ihr => simp only [plain, ihl, ihr]
  | cond _ _ _ iha ihb ihc | func _ _ _ iha ihb ihc => simp only [plain, iha, ihb, ihc]
  | _ => rfl

theorem matches_of_plain {t : Tree σ} {u : Tree τ} (h : t.plain = u.plain) : Matches t u := by
  induction t generalizing u with
  | var x m =>
    cases u with
    | var y n =>
      obtain rfl : x = y := by simpa [plain] using h
      exact .var
    | _ => cases h
  | literal v sort m =>
    cases u with
    | literal w sort' n =>
      obtain ⟨hv, rfl⟩ : v.toInt = w.toInt ∧ sort = sort' := by simpa [plain] using h
      exact .literal hv
    | _ => cases h
  | arith op l r m ihl ihr =>
    cases u with
    | arith op' l' r' n =>
      obtain ⟨rfl, hl, hr⟩ : op = op' ∧ l.plain = l'.plain ∧ r.plain = r'.plain := by simpa [plain] using h
      exact .arith (ihl hl) (ihr hr)
    | _ => cases h
  | compare op l r m ihl ihr =>
    cases u with
    | compare op' l' r' n =>
      obtain ⟨rfl, hl, hr⟩ : op = op' ∧ l.plain = l'.plain ∧ r.plain = r'.plain := by simpa [plain] using h
      exact .compare (ihl hl) (ihr hr)
    | _ => cases h
  | apply f a m ihf iha =>
    cases u with
    | apply f' a' n =>
      obtain ⟨hf, ha⟩ : f.plain = f'.plain ∧ a.plain = a'.plain := by simpa [plain] using h
      exact .apply (ihf hf) (iha ha)
    | _ => cases h
  | cond a b c m iha ihb ihc =>
    cases u with
    | cond a' b' c' n =>
      obtain ⟨ha, hb, hc⟩ : a.plain = a'.plain ∧ b.plain = b'.plain ∧ c.plain = c'.plain := by
        simpa [plain] using h
      exact .cond (iha ha) (ihb hb) (ihc hc)
    | _ => cases h
  | func x p r b m ihp ihr ihb =>
    cases u with
    | func y p' r' b' n =>
      obtain ⟨rfl, hp, hr, hb⟩ : x = y ∧ p.plain = p'.plain ∧ r.plain = r'.plain ∧ b.plain = b'.plain := by
        simpa [plain] using h
      exact .func (ihp hp) (ihr hr) (ihb hb)
    | _ => cases h
  | int m =>
    cases u with
    | int n => exact .int
    | _ => cases h
  | bool m =>
    cases u with
    | bool n => exact .bool
    | _ => cases h
  | arrow p r m ihp ihr =>
    cases u with
    | arrow p' r' n =>
      obtain ⟨hp, hr⟩ : p.plain = p'.plain ∧ r.plain = r'.plain := by simpa [plain] using h
      exact .arrow (ihp hp) (ihr hr)
    | _ => cases h

theorem matches_iff {t : Tree σ} {u : Tree τ} : Matches t u ↔ t.plain = u.plain :=
  ⟨Matches.plain_eq, matches_of_plain⟩

/-! ## The order of the comparison -/

theorem totalSize_reverse (ts : List (Tree σ)) : totalSize ts.reverse = totalSize ts := by
  induction ts with
  | nil => rfl
  | cons t ts ih =>
    rw [List.reverse_cons, totalSize_append, ih]
    simp only [totalSize]
    omega

/-- The comparison that puts the pairs of children on the list one after another, and so takes
    the last of them first. -/
def lastFirst : List (Tree σ × Tree τ) → Bool
  | [] => true
  | (t, u) :: rest => t.label = u.label && lastFirst ((t.children.zip u.children).reverse ++ rest)
termination_by pairs => totalSize (pairs.map (·.1))
decreasing_by
  have h := totalSize_zip_le t.children u.children
  simp only [List.map_append, List.map_reverse, totalSize_append, totalSize_reverse, List.map_cons, totalSize, size_eq t]
  omega

theorem lastFirst_iff (pairs : List (Tree σ × Tree τ)) :
    lastFirst pairs = true ↔ ∀ p ∈ pairs, p.1.plain = p.2.plain := by
  induction pairs using lastFirst.induct with
  | case1 => simp [lastFirst]
  | case2 t u rest ih =>
    rw [lastFirst, Bool.and_eq_true, decide_eq_true_eq, ih, List.forall_mem_append, List.forall_mem_cons,
      plain_eq_iff, and_assoc]
    refine and_congr_right fun hlabel => and_congr_left' ?_
    rw [map_plain_iff (length_children hlabel)]
    simp only [List.mem_reverse]

/-! ## Keys -/

/-- The labels of some trees and all that is below them, parents first. -/
def keys (ts : List (Tree σ)) : List Label := (walkStack ts).map label

theorem keys_cons (t : Tree σ) (ts : List (Tree σ)) : keys (t :: ts) = t.label :: keys (t.children ++ ts) := by
  rw [keys, walkStack, List.map_cons, keys]

/-- From the labels of equally many trees each tree can be told. -/
theorem keys_eq_iff {ts : List (Tree σ)} {us : List (Tree τ)} (hlength : ts.length = us.length) :
    keys ts = keys us ↔ ts.map plain = us.map plain := by
  induction ts using walkStack.induct generalizing us with
  | case1 =>
    obtain rfl := List.length_eq_zero_iff.mp hlength.symm
    simp [keys, walkStack]
  | case2 t ts ih =>
    cases us with
    | nil => cases hlength
    | cons u us =>
      rw [keys_cons, keys_cons, List.cons.injEq, List.map_cons, List.map_cons, List.cons.injEq, plain_eq_iff, and_assoc]
      refine and_congr_right fun hlabel => ?_
      have hchildren := length_children hlabel
      rw [ih (by simp [hchildren, Nat.succ.inj hlength]), List.map_append, List.map_append]
      constructor
      · intro h
        exact List.append_inj h (by simp [hchildren])
      · intro h
        rw [h.1, h.2]

theorem key_eq_iff {t : Tree σ} {u : Tree τ} : t.key = u.key ↔ t.plain = u.plain := by
  have h : keys [t] = keys [u] ↔ [t].map plain = [u].map plain := keys_eq_iff rfl
  rw [List.map_singleton, List.map_singleton, List.singleton_inj] at h
  exact h

/-- Two trees compare as the same exactly when they are equal whatever their marks, in whichever
    order their children are compared, and exactly then they have one key. -/
theorem same_iff_matches_iff_key (t : Tree σ) (u : Tree τ) :
    (t.same u = true ↔ Matches t u) ∧ lastFirst [(t, u)] = t.same u ∧ (Matches t u ↔ t.key = u.key) := by
  refine ⟨same_iff.trans matches_iff.symm, ?_, matches_iff.trans key_eq_iff.symm⟩
  rw [Bool.eq_iff_iff, lastFirst_iff, List.forall_mem_singleton, same_iff]

end LambdaSyntax.Tree
