/-
  LambdaSyntax.Proofs.Recovery — a bad character counts as a blank.

  A scan goes on behind a bad character as behind a blank: one character is passed, and nothing else
  changes, as a bad character is no line feed. `blankedFrom` puts a blank in the place of every
  character that an error is at. A text so treated is cut at the same places as before
  (`Cuts.blanked`): no lexeme changes, since a blank behind it does not make it longer, and where an
  error was there is now a blank. So the tokens are the same and no error is left
  (`ofText_blanked`).
-/

import LambdaSyntax.Proofs.Relocation

namespace LambdaSyntax

variable {file : String} {c : Char} {cs w : List Char} {e : LexicalError} {es : List LexicalError} {p : Position} {o : Nat}

/-- The text `cs`, which starts at place `o`, with a blank wherever one of the errors is. -/
def blankedFrom (o : Nat) (es : List LexicalError) (cs : List Char) : List Char :=
  cs.mapIdx fun i c => if es.any (·.loc.offset = (o + i : Nat)) then ' ' else c

/-- The text with a blank wherever one of the errors is. -/
def blanked (source : String) (es : List LexicalError) : String := String.ofList (blankedFrom 0 es source.toList)

theorem blankedFrom_cons (o : Nat) (es : List LexicalError) (c : Char) (cs : List Char) :
    blankedFrom o es (c :: cs) =
      (if es.any (·.loc.offset = (o : Int)) then ' ' else c) :: blankedFrom (o + 1) es cs := by
  simp only [blankedFrom, List.mapIdx_cons, Nat.add_zero]
  congr 1
  simp only [Nat.add_assoc, Nat.add_comm 1]

/-- Errors further on leave the characters alone. -/
theorem blankedFrom_append (w cs : List Char) (h : ∀ e ∈ es, (o + w.length : Int) ≤ e.loc.offset) :
    blankedFrom o es (w ++ cs) = w ++ blankedFrom (o + w.length) es cs := by
  induction w generalizing o with
  | nil => rfl
  | cons c w ih =>
    rw [List.length_cons] at h
    have hnone : es.any (·.loc.offset = (o : Int)) = false := by
      rw [List.any_eq_false]
      intro e he
      have hle := h e he
      simp only [decide_eq_true_eq]
      omega
    have hfrom : ∀ e ∈ es, ((o + 1 : Nat) + w.length : Int) ≤ e.loc.offset := by
      intro e he
      have hle := h e he
      omega
    rw [List.cons_append, blankedFrom_cons, hnone, ih hfrom, List.length_cons, Nat.add_assoc, Nat.add_comm 1]
    rfl

/-- Errors before a text do not concern it. -/
theorem blankedFrom_of_before (h : e.loc.offset < o) : blankedFrom o (e :: es) cs = blankedFrom o es cs := by
  have hne : ∀ i : Nat, ¬e.loc.offset = (o + i : Nat) := fun i => by omega
  simp only [blankedFrom, List.any_cons, decide_eq_false (hne _), Bool.false_or]

theorem blankedFrom_head (o : Nat) (es : List LexicalError) (cs : List Char) :
    ∀ c ∈ (blankedFrom o es cs).head?, Text.isBlank c = true ∨ c ∈ cs.head? := by
  cases cs with
  | nil => simp [blankedFrom]
  | cons d ds =>
    rw [blankedFrom_cons]
    intro c hc
    obtain rfl := Option.some.inj hc
    split
    · exact .inl (by decide)
    · exact .inr rfl

namespace Position

/-- Among the characters that end no line all count alike. -/
theorem step_of_not_blank (p : Position) (h : Text.isBlank c = false) : p.step ' ' = p.step c := by
  have hc : c ≠ '\n' := by
    intro hc
    subst hc
    cases h
  unfold step
  rw [if_neg hc, if_neg (by decide)]

end Position

namespace Scan

variable {s : Scan}

theorem Cuts.le_error (h : Cuts file p cs s) : ∀ e ∈ s.errors, (p.offset : Int) ≤ e.loc.offset := by
  intro e he
  obtain ⟨i, hi, -⟩ := h.opened.errors e he
  omega

theorem Cuts.blanked (h : Cuts file p cs s) : Cuts file p (blankedFrom p.offset s.errors cs) ⟨s.tokens, []⟩ := by
  induction h with
  | finish => exact .finish
  | @blank p c cs s hb hcs ih =>
    have hle := hcs.le_error
    rw [offset_step] at hle ih
    have hkeep : blankedFrom p.offset s.errors (c :: cs) = c :: blankedFrom (p.offset + 1) s.errors cs :=
      blankedFrom_append [c] cs hle
    rw [hkeep]
    exact .blank hb ih
  | @lexeme p l rest s hl hrest ih =>
    have hle := hrest.le_error
    rw [offset_pass] at hle ih
    have hkeep : blankedFrom p.offset s.errors (l.chars ++ rest) = _ := blankedFrom_append l.chars rest hle
    show Cuts file p (blankedFrom p.offset s.errors (l.chars ++ rest)) _
    rw [hkeep]
    exact .lexeme (first?_of_head hl (blankedFrom_head _ _ rest)) ih
  | @bad p c cs s hb hl hcs ih =>
    rw [offset_step] at ih
    have hput : blankedFrom p.offset (⟨c, p.within file⟩ :: s.errors) (c :: cs) =
        ' ' :: blankedFrom (p.offset + 1) s.errors cs := by
      rw [blankedFrom_cons, blankedFrom_of_before (by simp only [Position.within]; omega)]
      simp [Position.within]
    show Cuts file p (blankedFrom p.offset (⟨c, p.within file⟩ :: s.errors) (c :: cs)) _
    rw [hput]
    rw [← Position.step_of_not_blank p hb] at ih
    exact .blank (by decide) ih

end Scan

/-- Recovery from errors is the same as blanking: with blanks for the bad characters a text has the
    same tokens and no errors. -/
theorem ofText_blanked (file source : String) :
    (Scan.ofText file (blanked source (Scan.ofText file source).errors)).errors = [] ∧
    (Scan.ofText file (blanked source (Scan.ofText file source).errors)).tokens = (Scan.ofText file source).tokens := by
  have h := (Scan.cuts_scanFrom file .origin source.toList).blanked.eq_scanFrom
  have hblanked : Scan.ofText file (blanked source (Scan.ofText file source).errors) =
      ⟨(Scan.ofText file source).tokens, []⟩ := by
    rw [Scan.ofText, blanked, String.toList_ofList]
    exact h.symm
  rw [hblanked]
  exact ⟨rfl, rfl⟩

example : blanked "a!==b=" (Scan.ofText "" "a!==b=").errors = "a ==b " := by decide

end LambdaSyntax
