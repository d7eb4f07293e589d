/-
  LambdaSyntax.Proofs.Literal — the value that is worked out for a row of digits is its
  decimal value.

  Zeros in front add nothing, and a row whose first digit is not zero is worth at least a
  power of ten (`pow_le_decimal`). So a row that is refused for its length alone does not fit
  either, and `integer_eq_ok_iff` needs no word about lengths.
-/

import LambdaSyntax.Literal
import Mathlib.Algebra.Group.Nat.Defs

namespace LambdaSyntax.Literal

theorem decimal_zero_cons (cs : List Char) : decimal ('0' :: cs) = decimal cs := by
  simp [decimal, Nat.ofDigitChars_cons]

theorem decimal_significant (cs : List Char) : decimal (significant cs) = decimal cs := by
  induction cs with
  | nil => rfl
  | cons c cs ih =>
    by_cases h : c = '0'
    · subst h
      rw [decimal_zero_cons, ← ih]
      rfl
    · simp [significant, h]

theorem digit_pos {c : Char} (h : c.isDigit) (h0 : c ≠ '0') : 1 ≤ c.toNat - '0'.toNat := by
  simp only [Char.isDigit, Bool.and_eq_true, decide_eq_true_eq] at h
  have h1 : ('0' : Char).toNat ≤ c.toNat := h.1
  have h2 : c.toNat ≠ ('0' : Char).toNat := fun e => h0 (Char.toNat_inj.mp e)
  omega

theorem pow_le_decimal {c : Char} {cs : List Char} (h : c.isDigit) (h0 : c ≠ '0') :
    10 ^ cs.length ≤ decimal (c :: cs) := by
  unfold decimal
  rw [Nat.ofDigitChars_cons, Nat.ofDigitChars_eq_ofDigitChars_zero, Nat.mul_zero, Nat.zero_add]
  have h1 := Nat.mul_le_mul_left (10 ^ cs.length) (digit_pos h h0)
  omega

theorem significant_head {c : Char} {cs ds : List Char} (h : significant cs = c :: ds) : c ∈ cs ∧ c ≠ '0' := by
  unfold significant at h
  refine ⟨(List.dropWhile_sublist _).subset (h ▸ List.mem_cons_self), ?_⟩
  have := List.head_dropWhile_not (· = '0') (l := cs) (by simp [h])
  simpa [h] using this

/-- A row that has too many digits without the zeros in front does not fit. -/
theorem largest_lt_of_digits {cs : List Char} (h : isDigits cs) (hl : largestDigits < (significant cs).length) :
    largest < decimal cs := by
  rw [← decimal_significant]
  cases hs : significant cs with
  | nil => simp [hs] at hl
  | cons c ds =>
    obtain ⟨hmem, h0⟩ := significant_head hs
    have hdig : c.isDigit := by
      simp only [isDigits, Bool.and_eq_true, List.all_eq_true] at h
      exact h.2 c hmem
    have hpow : 10 ^ 19 ≤ 10 ^ ds.length := by
      refine Nat.pow_le_pow_right (by decide) ?_
      simp only [hs, largestDigits, List.length_cons] at hl
      omega
    calc largest < 10 ^ 19 := by decide
      _ ≤ 10 ^ ds.length := hpow
      _ ≤ decimal (c :: ds) := pow_le_decimal hdig h0

/-- A literal is decided by its value: a row that is refused for its length would not fit either. -/
theorem integer_eq (t : Token) (i : Int) : integer t i =
    if isDigits t.lexeme.toList = false then
      .error (.invalidLiteral t i "Integer literals consist of ASCII digits only.")
    else if largest < decimal t.lexeme.toList then .error (.overflow t i)
    else .ok (decimal t.lexeme.toList) := by
  simp only [integer, decimal_significant]
  split
  · rfl
  · rename_i hd
    rw [Bool.not_eq_false] at hd
    split
    · rename_i hl
      rw [if_pos (largest_lt_of_digits hd hl)]
    · rfl

theorem integer_eq_ok_iff {t : Token} {i : Int} {n : Nat} :
    integer t i = .ok n ↔ IsNumber t.lexeme.toList n := by
  rw [integer_eq, IsNumber]
  split
  · rename_i hd
    simp [hd]
  · rename_i hd
    rw [Bool.not_eq_false] at hd
    split
    · simp only [reduceCtorEq, hd, true_and, false_iff, not_and]
      omega
    · simp only [Except.ok.injEq, hd, true_and, iff_self_and]
      omega

theorem integer_error {t : Token} {i : Int} {e : SyntaxError} (h : integer t i = .error e) :
    e = .overflow t i ∨ ∃ reason, e = .invalidLiteral t i reason := by
  rw [integer_eq] at h
  split at h
  · cases h
    exact .inr ⟨_, rfl⟩
  split at h
  · cases h
    exact .inl rfl
  · cases h

/-- Every token is a number or refused, whatever its place. -/
theorem integer_error_of_not_number {t : Token} (h : ¬ ∃ n, IsNumber t.lexeme.toList n) (i : Int) :
    ∃ e, integer t i = .error e := by
  cases hi : integer t i with
  | ok n => exact absurd ⟨n, integer_eq_ok_iff.mp hi⟩ h
  | error e => exact ⟨e, rfl⟩

end LambdaSyntax.Literal
