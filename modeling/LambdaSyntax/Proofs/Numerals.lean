/-
  LambdaSyntax.Proofs.Numerals — which lexemes are numbers, and which number each of them is.

  `Numeral cs n` is decimal notation by itself: one digit, or a numeral for some number and a
  digit behind it, which makes ten times that number and the digit. The digits are those of
  ASCII. A row of digits is a numeral for its `decimal` and for nothing else (`numeral_iff`), of
  whatever length it is and with however many zeros in front.

  The count of digits decides nothing that the value would not decide (`integer_eq`). So a
  literal comes out in one of three ways, and which one is said by notation and value alone
  (`integer_exact`).
-/

import LambdaSyntax.Proofs.Literal

namespace LambdaSyntax.Literal

/-! ## Decimal notation -/

/-- The digits, each at the index that it stands for. -/
def digits : List Char := ['0', '1', '2', '3', '4', '5', '6', '7', '8', '9']

inductive Numeral : List Char → Nat → Prop
  | digit {c : Char} {d : Nat} : digits[d]? = some c → Numeral [c] d
  | next {cs : List Char} {c : Char} {n d : Nat} :
      Numeral cs n → digits[d]? = some c → Numeral (cs ++ [c]) (10 * n + d)

variable {c : Char} {cs ds : List Char} {d n : Nat}

theorem digit_value (h : digits[d]? = some c) : c.isDigit = true ∧ c.toNat - '0'.toNat = d := by
  have hall : ∀ i : Fin 10, digits[i].isDigit = true ∧ digits[i].toNat - '0'.toNat = i := by decide
  obtain ⟨hd, rfl⟩ := List.getElem?_eq_some_iff.mp h
  exact hall ⟨d, hd⟩

theorem digit_at_value (h : c.isDigit = true) : digits[c.toNat - '0'.toNat]? = some c := by
  have hall : ∀ i : Fin 10, digits[i.val]? = some (Char.ofNat ('0'.toNat + i)) := by decide
  obtain ⟨hle, hge⟩ := Char.isDigit_iff_toNat.mp h
  have hlt : c.toNat - '0'.toNat < 10 := by
    have hnine : '9'.toNat = '0'.toNat + 9 := rfl
    omega
  rw [hall ⟨_, hlt⟩, Nat.add_sub_cancel' hle, Char.ofNat_toNat]

theorem Numeral.isDigits (h : Numeral cs n) : isDigits cs = true := by
  induction h with
  | digit hc => simp [Literal.isDigits, (digit_value hc).1]
  | next _ hc ih =>
    rw [Literal.isDigits, Bool.and_eq_true] at ih
    rw [Literal.isDigits, List.all_append, ih.2]
    simp [(digit_value hc).1]

theorem Numeral.decimal_eq (h : Numeral cs n) : decimal cs = n := by
  induction h with
  | digit hc => rw [decimal, Nat.ofDigitChars_cons, Nat.ofDigitChars_nil, (digit_value hc).2, Nat.mul_zero, Nat.zero_add]
  | next _ hc ih =>
    rw [decimal, Nat.ofDigitChars_append, Nat.ofDigitChars_cons, Nat.ofDigitChars_nil, (digit_value hc).2]
    exact congrArg (10 * · + _) ih

/-- Digits behind a numeral go on with its value. -/
theorem Numeral.append (h : Numeral cs n) (hds : ∀ c ∈ ds, c.isDigit = true) :
    Numeral (cs ++ ds) (Nat.ofDigitChars 10 ds n) := by
  induction ds generalizing cs n with
  | nil => simpa using h
  | cons c ds ih =>
    rw [List.forall_mem_cons] at hds
    rw [List.append_cons, Nat.ofDigitChars_cons]
    exact ih (h.next (digit_at_value hds.1)) hds.2

theorem numeral_decimal (h : isDigits cs = true) : Numeral cs (decimal cs) := by
  cases cs with
  | nil => cases h
  | cons c cs =>
    rw [Literal.isDigits, Bool.and_eq_true, List.all_eq_true, List.forall_mem_cons] at h
    have hfirst : Numeral [c] (c.toNat - '0'.toNat) := .digit (digit_at_value h.2.1)
    rw [decimal, Nat.ofDigitChars_cons, Nat.mul_zero, Nat.zero_add]
    exact hfirst.append h.2.2

theorem numeral_iff : Numeral cs n ↔ isDigits cs = true ∧ decimal cs = n := by
  constructor
  · exact fun h => ⟨h.isDigits, h.decimal_eq⟩
  · rintro ⟨h, rfl⟩
    exact numeral_decimal h

/-! ## What comes of a literal -/

/-- A literal is a number when its lexeme is a numeral that fits a signed word of 64 bits, out of range
    when it is a numeral that does not, and invalid when it is no numeral. -/
theorem integer_exact (t : Token) (i : Int) :
    (∀ n, integer t i = .ok n ↔ Numeral t.lexeme.toList n ∧ n ≤ 2 ^ 63 - 1) ∧
    (integer t i = .error (.overflow t i) ↔ ∃ n, Numeral t.lexeme.toList n ∧ 2 ^ 63 - 1 < n) ∧
    (integer t i = .error (.invalidLiteral t i "Integer literals consist of ASCII digits only.") ↔
      ¬∃ n, Numeral t.lexeme.toList n) := by
  have hlargest : 2 ^ 63 - 1 = largest := by decide
  rw [integer_eq, hlargest]
  simp only [numeral_iff]
  by_cases hd : isDigits t.lexeme.toList = false
  · simp [hd]
  rw [if_neg hd]
  rw [Bool.not_eq_false] at hd
  by_cases hl : largest < decimal t.lexeme.toList
  · rw [if_pos hl]
    refine ⟨fun n => ?_, ?_, ?_⟩
    · simp only [reduceCtorEq, hd, true_and, false_iff]
      omega
    · simp [hd, hl]
    · simp [hd]
  · rw [if_neg hl]
    refine ⟨fun n => ?_, ?_, ?_⟩
    · simp only [Except.ok.injEq, hd, true_and, iff_self_and]
      omega
    · simp [hd, hl]
    · simp [hd]

end LambdaSyntax.Literal
