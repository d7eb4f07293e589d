/-
  LambdaSyntax.Proofs.Fold — the fold with a stack of its own is the recursive fold.

  `recFold` works off the children of a node from left to right and then the node. A tree on
  top of the tasks leaves its result on top of the results and touches nothing else
  (`foldStack_enter`), so `foldM` is `recFold` in every lawful monad, and a fold without
  effects is a plain recursion (`fold_eq`). Such a fold sees the marks only if `combine`
  does (`fold_map`); the height, the two texts and the record of a tree are made without a look
  at the marks.
-/

import LambdaSyntax.Tree.Printed
import LambdaSyntax.Tree.Record

namespace LambdaSyntax.Tree

section Effects

variable {σ β : Type} {m : Type → Type} [Monad m]

def recFold (combine : Tree σ → List β → m β) (t : Tree σ) : m β :=
  match t with
  | var .. | literal .. | int _ | bool _ => combine t []
  | arith _ l r _ | compare _ l r _ | apply l r _ | arrow l r _ => do
    let a ← recFold combine l
    let b ← recFold combine r
    combine t [a, b]
  | cond a b c _ | func _ a b c _ => do
    let x ← recFold combine a
    let y ← recFold combine b
    let z ← recFold combine c
    combine t [x, y, z]

variable [LawfulMonad m] (combine : Tree σ → List β → m β)

theorem recFold_eq (t : Tree σ) : recFold combine t = t.children.mapM (recFold combine) >>= combine t := by
  cases t <;> simp [recFold, children]

theorem foldStack_enter (t : Tree σ) (tasks : List (Task σ)) (results : List β) :
    foldStack combine (.enter t :: tasks) results =
      recFold combine t >>= fun b => foldStack combine tasks (b :: results) := by
  -- the induction is on the tree, for all tasks below it: the children's tasks stand on top of its own
  induction t generalizing tasks results with
  | var | literal | int | bool => simp [foldStack, opened, children, recFold]
  | arith _ _ _ _ ihl ihr | compare _ _ _ _ ihl ihr | apply _ _ _ ihl ihr | arrow _ _ _ ihl ihr =>
    rw [foldStack]
    simp [opened, children, recFold, ihl, ihr, foldStack]
  | cond _ _ _ _ iha ihb ihc | func _ _ _ _ _ iha ihb ihc =>
    rw [foldStack]
    simp [opened, children, recFold, iha, ihb, ihc, foldStack]

theorem foldM_eq (t : Tree σ) : foldM combine t = recFold combine t := by
  rw [foldM, foldStack_enter]
  simp [foldStack]

end Effects

variable {σ β : Type}

/-- A fold combines what it makes of the children. -/
theorem fold_eq (combine : Tree σ → List β → β) (t : Tree σ) :
    t.fold combine = combine t (t.children.map (fold combine)) := by
  have hfold : (fun u : Tree σ => (recFold (fun t parts => (pure (combine t parts) : Id β)) u).run) = fold combine := by
    funext u
    rw [fold, foldM_eq]
  rw [fold, foldM_eq, recFold_eq]
  simp [hfold]

variable {τ : Type}

theorem children_map (f : σ → τ) (t : Tree σ) : (t.map f).children = t.children.map (map f) := by
  cases t <;> rfl

/-- Where combining does not look at the marks, folding does not either. -/
theorem fold_map {f : σ → τ} {combine : Tree σ → List β → β} {combine' : Tree τ → List β → β}
    (h : ∀ t parts, combine' (t.map f) parts = combine t parts) (t : Tree σ) : (t.map f).fold combine' = t.fold combine := by
  have hchildren (t : Tree σ) (ih : ∀ u ∈ t.children, (u.map f).fold combine' = u.fold combine) :
      (t.map f).fold combine' = t.fold combine := by
    rw [fold_eq, fold_eq combine, children_map, h, List.map_map]
    exact congrArg (combine t) (List.map_congr_left ih)
  induction t with
  | var | literal | int | bool => exact hchildren _ (by simp [children])
  | arith _ _ _ _ ihl ihr | compare _ _ _ _ ihl ihr | apply _ _ _ ihl ihr | arrow _ _ _ ihl ihr =>
    exact hchildren _ (by simp [children, ihl, ihr])
  | cond _ _ _ _ iha ihb ihc | func _ _ _ _ _ iha ihb ihc => exact hchildren _ (by simp [children, iha, ihb, ihc])

/-! ## Folds that do not see the marks -/

variable (f : σ → τ) (t : Tree σ)

theorem isArrow_map : (t.map f).isArrow = t.isArrow := by cases t <;> rfl

theorem height_map : (t.map f).height = t.height := fold_map (fun _ _ => rfl) t

theorem printed_map : (t.map f).printed = t.printed := by
  refine fold_map (fun t parts => ?_) t
  cases t <;> rcases parts with _ | ⟨_, _ | ⟨_, _ | ⟨_, _ | _⟩⟩⟩ <;> simp [printedNode, map, isArrow_map]

theorem detail_map : (t.map f).detail = t.detail := by
  refine fold_map (fun t parts => ?_) t
  cases t <;> rcases parts with _ | ⟨_, _ | ⟨_, _ | ⟨_, _ | _⟩⟩⟩ <;> rfl

theorem toRecord_map : (t.map f).toRecord = t.toRecord := by
  refine fold_map (fun t parts => ?_) t
  cases t <;> rcases parts with _ | ⟨_, _ | ⟨_, _ | ⟨_, _ | _⟩⟩⟩ <;> rfl

/-- What does not see the marks is the same of trees that are one but for the marks. -/
theorem eq_of_bare {F : Tree σ → β} {F' : Tree Unit → β} (hF : ∀ t, F' t.bare = F t) {t u : Tree σ} (h : t.bare = u.bare) :
    F t = F u := by
  rw [← hF t, h, hF u]

end LambdaSyntax.Tree
