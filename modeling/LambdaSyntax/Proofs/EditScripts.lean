/-
  LambdaSyntax.Proofs.EditScripts — the distance of two words is the least number of edits that
  turn one into the other.

  An edit inserts, deletes or replaces one character anywhere in a word. A script is a row of any
  edits, also of such as undo each other. `least` goes through two words from the front and has three
  ways to go on where characters stand on both sides. One edit changes it by one at most, wherever
  it is made (`Edit.least_le`), so no script is shorter; and the ways that it takes are a script
  (`script_least`).

  A row of the table holds the distances from one word to all beginnings of the other
  (`row_eq`). Beginnings grow at the back, so these are the values of `least` for the words
  turned round, which have the same scripts (`Script.reverse`). As `least` is symmetric, either
  word may be the one along the rows.
-/

import Mathlib.Order.Bounds.Basic
import LambdaSyntax.Hint.Distance

namespace LambdaSyntax.Hint

variable {a a' b b' : List Char} {c d : Char} {m n : Nat}

/-! ## Scripts -/

/-- One character at the front is inserted, deleted or replaced, or one behind characters that stay. -/
inductive Edit : List Char → List Char → Prop
  | insert {c : Char} {cs : List Char} : Edit cs (c :: cs)
  | delete {c : Char} {cs : List Char} : Edit (c :: cs) cs
  | replace {c d : Char} {cs : List Char} : Edit (c :: cs) (d :: cs)
  | further {c : Char} {cs ds : List Char} : Edit cs ds → Edit (c :: cs) (c :: ds)

/-- So many edits, one after another. -/
inductive Script : List Char → List Char → Nat → Prop
  | nil {a : List Char} : Script a a 0
  | cons {a b c : List Char} {n : Nat} : Edit a b → Script b c n → Script a c (n + 1)

theorem Edit.behind (h : Edit a b) (pre : List Char) : Edit (pre ++ a) (pre ++ b) := by
  induction pre with
  | nil => exact h
  | cons c pre ih => exact .further ih

theorem Edit.before (h : Edit a b) (post : List Char) : Edit (a ++ post) (b ++ post) := by
  induction h with
  | insert => exact .insert
  | delete => exact .delete
  | replace => exact .replace
  | further _ ih => exact .further ih

theorem Edit.reverse (h : Edit a b) : Edit a.reverse b.reverse := by
  induction h with
  | @insert c cs =>
    have hlast : Edit [] [c] := .insert
    simpa using hlast.behind cs.reverse
  | @delete c cs =>
    have hlast : Edit [c] [] := .delete
    simpa using hlast.behind cs.reverse
  | @replace c d cs =>
    have hlast : Edit [c] [d] := .replace
    simpa using hlast.behind cs.reverse
  | @further c cs ds _ ih => simpa using ih.before [c]

theorem Script.reverse (h : Script a b n) : Script a.reverse b.reverse n := by
  induction h with
  | nil => exact .nil
  | cons he _ ih => exact .cons he.reverse ih

theorem Script.further (h : Script a b n) (c : Char) : Script (c :: a) (c :: b) n := by
  induction h with
  | nil => exact .nil
  | cons he _ ih => exact .cons (.further he) ih

theorem Script.concat (h : Script a b n) (he : Edit b b') : Script a b' (n + 1) := by
  induction h with
  | nil => exact .cons he .nil
  | cons hfirst _ ih => exact .cons hfirst (ih he)

theorem Script.min (h : Script a b m) (h' : Script a b n) : Script a b (min m n) := by
  rcases Nat.le_total m n with hle | hle
  · rwa [Nat.min_eq_left hle]
  · rwa [Nat.min_eq_right hle]

/-! ## The least number of edits -/

def least : List Char → List Char → Nat
  | [], b => b.length
  | a, [] => a.length
  | c :: a, d :: b => min (min (least a (d :: b) + 1) (least (c :: a) b + 1)) (least a b + if c = d then 0 else 1)
termination_by a b => a.length + b.length

@[simp] theorem least_nil_left (b : List Char) : least [] b = b.length := by rw [least]

@[simp] theorem least_nil_right (a : List Char) : least a [] = a.length := by cases a <;> simp [least]

theorem least_cons (c d : Char) (a b : List Char) : least (c :: a) (d :: b) =
    min (min (least a (d :: b) + 1) (least (c :: a) b + 1)) (least a b + if c = d then 0 else 1) := by
  rw [least]

theorem least_comm (a b : List Char) : least a b = least b a := by
  fun_induction least a b with
  | case1 b => simp
  | case2 a => simp
  | case3 c a d b ihl ihr ih =>
    rw [least_cons d c b a, ihl, ihr, ih, Nat.min_comm (least (d :: b) a + 1)]
    simp only [eq_comm (a := c)]

theorem least_push (c : Char) (a b : List Char) : least (c :: a) b ≤ least a b + 1 := by
  cases b with
  | nil => simp
  | cons d b =>
    rw [least_cons]
    omega

theorem least_drop (c : Char) (a b : List Char) : least a b ≤ least (c :: a) b + 1 := by
  induction b with
  | nil => simp; omega
  | cons d b ih =>
    have hpush : least a (d :: b) ≤ least a b + 1 := by
      rw [least_comm a, least_comm a]
      exact least_push d b a
    rw [least_cons]
    omega

theorem least_self (a : List Char) : least a a = 0 := by
  induction a with
  | nil => simp
  | cons c a ih =>
    rw [least_cons, ih, if_pos rfl]
    omega

/-- An edit brings a word nearer to another by one at most. -/
theorem Edit.least_le (h : Edit a a') (b : List Char) : least a b ≤ least a' b + 1 := by
  induction h generalizing b with
  | insert => exact least_drop _ _ b
  | delete => exact least_push _ _ b
  | @replace c d cs =>
    induction b with
    | nil => simp
    | cons e b ih =>
      rw [least_cons, least_cons]
      split <;> split <;> omega
  | @further c cs ds _ ih =>
    induction b with
    | nil =>
      have hlength := ih []
      simp only [least_nil_right, List.length_cons] at hlength ⊢
      omega
    | cons e b ihb =>
      have hup := ih (e :: b)
      have hdiagonal := ih b
      rw [least_cons, least_cons]
      omega

theorem Script.least_le (h : Script a b n) : least a b ≤ n := by
  induction h with
  | nil => rw [least_self]
  | @cons a b c n he _ ih =>
    have hstep := he.least_le c
    omega

theorem script_of_nil (b : List Char) : Script [] b b.length := by
  induction b with
  | nil => exact .nil
  | cons d b ih => exact ih.concat .insert

theorem script_to_nil (a : List Char) : Script a [] a.length := by
  induction a with
  | nil => exact .nil
  | cons c a ih => exact .cons .delete ih

theorem script_least (a b : List Char) : Script a b (least a b) := by
  fun_induction least a b with
  | case1 b => exact script_of_nil b
  | case2 a => exact script_to_nil a
  | case3 c a d b ihl ihr ih =>
    have hdiagonal : Script (c :: a) (d :: b) (least a b + if c = d then 0 else 1) := by
      split
      · rename_i hcd
        subst hcd
        exact ih.further c
      · exact .cons .replace (ih.further d)
    have hdown : Script (c :: a) (d :: b) (least a (d :: b) + 1) := .cons .delete ihl
    have hright : Script (c :: a) (d :: b) (least (c :: a) b + 1) := ihr.concat .insert
    exact (hdown.min hright).min hdiagonal

theorem least_isLeast (a b : List Char) : IsLeast {n | Script a b n} (least a b) :=
  ⟨script_least a b, fun _ h => h.least_le⟩

/-! ## The table -/

/-- The values of `f` at a word and with more and more of the other word in front of it. -/
def along (f : List Char → Nat) : List Char → List Char → List Nat
  | q, [] => [f q]
  | q, d :: ds => f q :: along f (d :: q) ds

theorem along_eq (f : List Char → Nat) (q ds : List Char) : along f q ds = f q :: (along f q ds).tail := by
  cases ds <;> rfl

theorem along_length (q ds : List Char) : along List.length q ds = List.range' q.length (ds.length + 1) := by
  induction ds generalizing q with
  | nil => rfl
  | cons d ds ih => exact congrArg (q.length :: ·) (ih (d :: q))

theorem getLast?_along (f : List Char → Nat) (q ds : List Char) : (along f q ds).getLast? = some (f (ds.reverse ++ q)) := by
  induction ds generalizing q with
  | nil => rfl
  | cons d ds ih => rw [along, along_eq, List.getLast?_cons_cons, ← along_eq, ih, List.reverse_cons, List.append_cons]

theorem nextEntries_along (c : Char) (a q ds : List Char) :
    nextEntries c (least (c :: a) q) (along (least a) q ds) ds = (along (least (c :: a)) q ds).tail := by
  induction ds generalizing q with
  | nil => rfl
  | cons d ds ih =>
    have hentry : min (min (least a (d :: q) + 1) (least (c :: a) q + 1)) (least a q + if c = d then 0 else 1) =
        least (c :: a) (d :: q) := (least_cons c d a q).symm
    rw [along, along_eq, nextEntries]
    simp only [hentry]
    rw [← along_eq, ih, along, List.tail_cons, ← along_eq]

theorem nextRow_along (c : Char) (a b : List Char) :
    nextRow b (along (least a) [] b) c = along (least (c :: a)) [] b := by
  have hfirst : least a [] + 1 = least (c :: a) [] := by simp
  rw [along_eq, nextRow]
  simp only [hfirst]
  rw [← along_eq, nextEntries_along, ← along_eq]

theorem foldl_nextRow (a b r : List Char) :
    a.foldl (nextRow b) (along (least r) [] b) = along (least (a.reverse ++ r)) [] b := by
  induction a generalizing r with
  | nil => rfl
  | cons c a ih => rw [List.foldl_cons, nextRow_along, ih, List.reverse_cons, List.append_assoc, List.singleton_append]

/-- The distances from a word to all beginnings of another. -/
theorem row_eq (a b : List Char) : row a b = along (least a.reverse) [] b := by
  have hstart : List.range (b.length + 1) = along (least []) [] b := by
    have hnil : least [] = List.length := funext least_nil_left
    rw [hnil, along_length, List.range_eq_range']
    rfl
  rw [row, hstart, foldl_nextRow, List.append_nil]

theorem distance_eq (a b : List Char) : distance a b = least a.reverse b.reverse := by
  rw [distance, row_eq, getLast?_along, List.append_nil, Option.getD_some]

/-- The distance to a word that lies along the rows; without characters it needs no table. -/
def fromRows (a b : List Char) : Nat := if b = [] then a.length else distance a b

/-- The distance with the shorter word along the rows. -/
def shortRows (a b : List Char) : Nat := if a.length < b.length then fromRows b a else fromRows a b

theorem fromRows_eq (a b : List Char) : fromRows a b = distance a b := by
  unfold fromRows
  split
  · rename_i hb
    rw [hb, distance_eq, List.reverse_nil, least_nil_right, List.length_reverse]
  · rfl

/-- The distance of two words is the least length of a script that turns the one into the other,
    whichever of the two lies along the rows. -/
theorem distance_isLeast (a b : List Char) :
    IsLeast {n | Script a b n} (distance a b) ∧ shortRows a b = distance a b := by
  constructor
  · rw [distance_eq]
    obtain ⟨hscript, hle⟩ := least_isLeast a.reverse b.reverse
    refine ⟨by simpa using hscript.reverse, fun n h => hle h.reverse⟩
  · rw [shortRows, fromRows_eq, fromRows_eq, distance_eq b, distance_eq a, least_comm, ite_self]

example : distance "kitten".toList "sitting".toList = 3 := by decide

end LambdaSyntax.Hint
