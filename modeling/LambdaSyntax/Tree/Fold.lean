/-
  LambdaSyntax.Tree.Fold — going through a tree with stacks in place of recursion.

  A chain of operators is as deep as it is long, so what reads whole trees keeps its own
  stack. `foldStack` works off a stack of tasks: a tree that is entered puts its own
  `leave` under its children's `enter`, first child on top, and a tree that is left takes
  its children's results off the stack of results and puts its own there. A `combine` that
  fails ends the fold at that node.

  `walk` lists the nodes, parents first and children from left to right.
-/

import LambdaSyntax.Tree.Basic

namespace LambdaSyntax.Tree

variable {σ β : Type} {m : Type → Type} [Monad m]

inductive Task (σ : Type) where
  | enter (t : Tree σ)
  | leave (t : Tree σ)

def Task.weight : Task σ → Nat
  | enter t => 2 * t.size
  | leave _ => 1

def totalWeight : List (Task σ) → Nat
  | [] => 0
  | task :: tasks => task.weight + totalWeight tasks

theorem totalWeight_append (a b : List (Task σ)) :
    totalWeight (a ++ b) = totalWeight a + totalWeight b := by
  induction a with
  | nil => simp [totalWeight]
  | cons t a ih => simp only [List.cons_append, totalWeight, ih]; omega

theorem totalWeight_enter (ts : List (Tree σ)) :
    totalWeight (ts.map Task.enter) = 2 * totalSize ts := by
  induction ts with
  | nil => rfl
  | cons t ts ih => simp only [List.map_cons, totalWeight, Task.weight, totalSize, ih]; omega

/-- What a tree that is entered puts on the stack of tasks. -/
def opened (t : Tree σ) : List (Task σ) := t.children.map Task.enter ++ [.leave t]

theorem totalWeight_opened (t : Tree σ) : totalWeight t.opened < (Task.enter t).weight := by
  simp only [opened, totalWeight_append, totalWeight_enter, totalWeight, Task.weight, size_eq t]
  omega

/-- Works off the tasks; the results stand with the newest on top. -/
@[specialize] def foldStack (combine : Tree σ → List β → m β) :
    List (Task σ) → List β → m (List β)
  | [], results => pure results
  | .enter t :: tasks, results => foldStack combine (t.opened ++ tasks) results
  | .leave t :: tasks, results => do
    let b ← combine t (results.take t.children.length).reverse
    foldStack combine tasks (b :: results.drop t.children.length)
termination_by tasks => totalWeight tasks
decreasing_by
  · have h := totalWeight_opened t
    simp only [totalWeight_append, totalWeight]
    omega
  · simp only [totalWeight, Task.weight]
    omega

/-- Folds a tree from the leaves up. The stack ends with the root's result alone. -/
@[specialize] def foldM (combine : Tree σ → List β → m β) (t : Tree σ) : m β := do
  match ← foldStack combine [.enter t] [] with
  | b :: _ => pure b
  | [] => combine t []

/-- The fold with a `combine` that has no effect. -/
@[specialize] def fold (combine : Tree σ → List β → β) (t : Tree σ) : β :=
  Id.run (foldM (fun t parts => pure (combine t parts)) t)

def walkStack : List (Tree σ) → List (Tree σ)
  | [] => []
  | t :: ts => t :: walkStack (t.children ++ ts)
termination_by ts => totalSize ts
decreasing_by
  simp only [totalSize_append, totalSize, size_eq t]
  omega

/-- The nodes of a tree, parents first. -/
def walk (t : Tree σ) : List (Tree σ) := walkStack [t]

def height (t : Tree σ) : Nat := t.fold fun _ heights => heights.foldl max 0 + 1

end LambdaSyntax.Tree
