/-
  LambdaSyntax.Proofs.Words — lexemes by themselves, and at the front of a text.

  No blank is part of a lexeme (`not_blank_of_class`). What `Lexeme.first?` cuts off is a lexeme
  of its class from end to end (`classOf?_first?`), and a lexeme is cut off whole where the next
  character does not make it longer (`first?_append`). What literals are written as are lexemes
  too.
-/

import LambdaSyntax.Token.Class
import LambdaSyntax.Tree.Printed
import LambdaSyntax.Tree.WellFormed

namespace LambdaSyntax

variable {c : Char} {cs rest : List Char} {k : Kind}

/-! ## Characters -/

/-- The letters by their code points. -/
theorem isAlpha_iff_toNat : c.isAlpha = true ↔ 65 ≤ c.toNat ∧ c.toNat ≤ 90 ∨ 97 ≤ c.toNat ∧ c.toNat ≤ 122 := by
  show (decide (c.val ≥ 'A'.val ∧ c.val ≤ 'Z'.val) || decide (c.val ≥ 'a'.val) && decide (c.val ≤ 'z'.val)) = true ↔ _
  simp [UInt32.le_iff_toNat_le]

theorem isDigit_iff_toNat : c.isDigit = true ↔ 48 ≤ c.toNat ∧ c.toNat ≤ 57 := Char.isDigit_iff_toNat

theorem isWordStart_not_digit (h : isWordStart c = true) : c.isDigit = false := by
  rw [isWordStart, Bool.or_eq_true, beq_iff_eq] at h
  rcases h with rfl | h
  · rfl
  · rw [isAlpha_iff_toNat] at h
    rw [← Bool.not_eq_true, isDigit_iff_toNat]
    omega

theorem isWordStart_wordChar (h : isWordStart c = true) : isWordChar c = true := by
  simp only [isWordStart, isWordChar, Char.isAlphanum, Bool.or_eq_true] at *
  exact h.imp_right .inl

theorem not_blank_of_wordChar (h : isWordChar c = true) : Text.isBlank c = false := by
  rw [isWordChar, Bool.or_eq_true, beq_iff_eq] at h
  rcases h with rfl | h
  · rfl
  · rw [Char.isAlphanum, Bool.or_eq_true, isAlpha_iff_toNat, isDigit_iff_toNat] at h
    simp [Text.isBlank, Text.inRanges, Text.blankRanges]
    omega

theorem isWordChar_of_digit (h : c.isDigit = true) : isWordChar c = true := by
  simp [isWordChar, Char.isAlphanum, h]

theorem digit_not_wordStart (h : c.isDigit = true) : isWordStart c = false := by
  rw [← Bool.not_eq_true]
  intro hw
  rw [isWordStart_not_digit hw] at h
  cases h

/-! ## Classes -/

theorem not_digits_of_word (h : isWord cs = true) : Literal.isDigits cs = false := by
  cases cs with
  | nil => cases h
  | cons c cs =>
    rw [isWord, Bool.and_eq_true] at h
    simp [Literal.isDigits, isWordStart_not_digit h.1]

theorem classOf?_digits (h : Literal.isDigits cs = true) : classOf? cs = some .integer := if_pos h

theorem classOf?_word (h : isWord cs = true) :
    classOf? cs = some ((spelled? Kind.keywords cs).getD .identifier) := by
  simp [classOf?, not_digits_of_word h, h]

theorem classOf?_operator (hd : c.isDigit = false) (hw : isWordStart c = false) :
    classOf? (c :: cs) = spelled? Kind.operators (c :: cs) := by
  simp [classOf?, Literal.isDigits, isWord, hd, hw]

theorem spelled?_eq_some {table : List Kind} (h : spelled? table cs = some k) :
    k ∈ table ∧ k.spelling? = some (String.ofList cs) := by
  have hk := List.find?_some h
  exact ⟨List.mem_of_find?_eq_some h, by simpa using hk⟩

/-- The three ways to be a lexeme. -/
theorem classOf?_cases (h : classOf? cs = some k) : Literal.isDigits cs = true ∧ k = .integer ∨
    isWord cs = true ∧ k = (spelled? Kind.keywords cs).getD .identifier ∨ spelled? Kind.operators cs = some k := by
  unfold classOf? at h
  split at h
  · rename_i hd
    exact .inl ⟨hd, (Option.some.inj h).symm⟩
  split at h
  · rename_i hw
    exact .inr (.inl ⟨hw, (Option.some.inj h).symm⟩)
  · exact .inr (.inr h)

theorem digits_of_isDigits (h : Literal.isDigits cs = true) : ∀ c ∈ cs, c.isDigit = true := by
  rw [Literal.isDigits, Bool.and_eq_true, List.all_eq_true] at h
  exact h.2

theorem wordChars_of_isWord (h : isWord cs = true) : ∀ c ∈ cs, isWordChar c = true := by
  cases cs with
  | nil => cases h
  | cons c cs =>
    rw [isWord, Bool.and_eq_true, List.all_eq_true] at h
    rw [List.forall_mem_cons]
    exact ⟨isWordStart_wordChar h.1, h.2⟩

theorem isDigits_snoc (h : Literal.isDigits cs = true) : Literal.isDigits (cs ++ [c]) = c.isDigit := by
  rw [Literal.isDigits, Bool.and_eq_true] at h
  simp [Literal.isDigits, h.2]

theorem isWord_snoc (h : isWord cs = true) : isWord (cs ++ [c]) = isWordChar c := by
  cases cs with
  | nil => cases h
  | cons d cs =>
    rw [isWord, Bool.and_eq_true] at h
    simp [isWord, h.1, h.2]

theorem not_blank_of_all (h : cs.all (fun c => !Text.isBlank c) = true) : ∀ c ∈ cs, Text.isBlank c = false := by
  simpa using h

/-- An operator is short and looks like nothing else from its first character on. -/
theorem operator_chars (h : spelled? Kind.operators cs = some k) :
    ∃ o os, cs = o :: os ∧ os.length ≤ 1 ∧ o.isDigit = false ∧ isWordStart o = false ∧
      ∀ c ∈ cs, Text.isBlank c = false := by
  obtain ⟨hmem, hs⟩ := spelled?_eq_some h
  have hcs : k.spelling?.map String.toList = some cs := by simp [hs]
  cases k with
  | plus | minus | times | divide | less | equal | greater | arrow | leftParen | rightParen | colon =>
    obtain rfl := Option.some.inj hcs
    exact ⟨_, _, rfl, by decide, by decide, by decide, not_blank_of_all (by decide)⟩
  | _ => exact absurd hmem (by decide)

theorem ne_nil_of_class (h : classOf? cs = some k) : cs ≠ [] := by
  intro hnil
  rw [hnil] at h
  cases h

theorem not_blank_of_class (h : classOf? cs = some k) : ∀ c ∈ cs, Text.isBlank c = false := by
  rcases classOf?_cases h with ⟨hd, -⟩ | ⟨hw, -⟩ | ho
  · exact fun c hc => not_blank_of_wordChar (isWordChar_of_digit (digits_of_isDigits hd c hc))
  · exact fun c hc => not_blank_of_wordChar (wordChars_of_isWord hw c hc)
  · obtain ⟨o, os, -, -, -, -, hb⟩ := operator_chars ho
    exact hb

theorem not_keyword_identifier (cs : List Char) : spelled? Kind.keywords cs ≠ some .identifier := by
  intro h
  exact absurd (spelled?_eq_some h).1 (by decide)

/-- The lexemes of identifiers are the names. -/
theorem classOf?_eq_identifier {s : String} : classOf? s.toList = some .identifier ↔ isName s = true := by
  rw [isName, Bool.and_eq_true, Option.isNone_iff_eq_none]
  constructor
  · intro h
    by_cases hw : isWord s.toList = true
    · refine ⟨hw, ?_⟩
      rw [classOf?_word hw, Option.some.injEq] at h
      cases hk : spelled? Kind.keywords s.toList with
      | none => rfl
      | some k =>
        rw [hk] at h
        obtain rfl : k = .identifier := h
        exact absurd hk (not_keyword_identifier _)
    · by_cases hd : Literal.isDigits s.toList = true
      · rw [classOf?_digits hd] at h
        cases h
      · simp only [classOf?, if_neg hd, if_neg hw] at h
        exact absurd (spelled?_eq_some h).1 (by decide)
  · intro h
    obtain ⟨hw, hk⟩ := h
    rw [classOf?_word hw, hk]
    rfl

theorem classOf?_ne_finish : classOf? cs ≠ some .finish := by
  intro h
  rcases classOf?_cases h with ⟨-, hk⟩ | ⟨-, hk⟩ | ho
  · cases hk
  · cases hs : spelled? Kind.keywords cs with
    | none => simp [hs] at hk
    | some k =>
      rw [hs] at hk
      obtain rfl : Kind.finish = k := hk
      exact absurd (spelled?_eq_some hs).1 (by decide)
  · exact absurd (spelled?_eq_some ho).1 (by decide)

/-! ## The lexeme that opens a text -/

theorem first?_of_digit (hd : c.isDigit = true) :
    Lexeme.first? (c :: cs) = some ⟨.integer, (c :: cs).takeWhile Char.isDigit⟩ := if_pos hd

theorem first?_of_wordStart (hw : isWordStart c = true) :
    Lexeme.first? (c :: cs) = some (.ofWord ((c :: cs).takeWhile isWordChar)) := by
  simp only [Lexeme.first?, isWordStart_not_digit hw, hw, Bool.false_eq_true, if_false, if_true]

theorem first?_of_sign (hd : c.isDigit = false) (hw : isWordStart c = false) :
    Lexeme.first? (c :: cs) = (Lexeme.operator? ((c :: cs).take 2)).or (Lexeme.operator? [c]) := by
  simp only [Lexeme.first?, hd, hw, Bool.false_eq_true, if_false]

/-- What is cut off is a lexeme of its kind from end to end. -/
theorem classOf?_first? {l : Lexeme} (h : Lexeme.first? cs = some l) : classOf? l.chars = some l.kind := by
  cases cs with
  | nil => cases h
  | cons c cs =>
    rw [Lexeme.first?] at h
    split at h
    · rename_i hd
      obtain rfl := Option.some.inj h
      refine classOf?_digits ?_
      rw [List.takeWhile_cons_of_pos hd]
      simp [Literal.isDigits, hd, List.all_takeWhile]
    split at h
    · rename_i hd hw
      obtain rfl := Option.some.inj h
      refine classOf?_word ?_
      show isWord ((c :: cs).takeWhile isWordChar) = true
      rw [List.takeWhile_cons_of_pos (isWordStart_wordChar hw)]
      simp [isWord, hw]
    · rename_i hd hw
      rw [Bool.not_eq_true] at hd hw
      have hop : ∀ {xs : List Char}, Lexeme.operator? (c :: xs) = some l → classOf? l.chars = some l.kind := by
        intro xs hx
        obtain ⟨k, hk, rfl⟩ := Option.map_eq_some_iff.mp hx
        exact (classOf?_operator hd hw).trans hk
      rcases Option.or_eq_some_iff.mp h with h | ⟨-, h⟩
      · exact hop h
      · exact hop h

theorem first?_prefix {l : Lexeme} (h : Lexeme.first? cs = some l) : l.chars <+: cs := by
  cases cs with
  | nil => cases h
  | cons c cs =>
    rw [Lexeme.first?] at h
    split at h
    · obtain rfl := Option.some.inj h
      exact List.takeWhile_prefix _
    split at h
    · obtain rfl := Option.some.inj h
      exact List.takeWhile_prefix _
    · rcases Option.or_eq_some_iff.mp h with h | ⟨-, h⟩
      · obtain ⟨k, hk, rfl⟩ := Option.map_eq_some_iff.mp h
        exact List.take_prefix 2 _
      · obtain ⟨k, hk, rfl⟩ := Option.map_eq_some_iff.mp h
        exact ⟨cs, rfl⟩

/-! ## Where a lexeme ends -/

/-- The first character of `rest` does not make `cs` a longer lexeme. -/
def Closed (cs rest : List Char) : Prop := ∀ c ∈ rest.head?, classOf? (cs ++ [c]) = none

theorem closed_nil : Closed cs [] := by simp [Closed]

theorem closed_of_blank (hc : Text.isBlank c = true) : Closed cs (c :: rest) := by
  intro d hd
  obtain rfl := Option.some.inj hd
  cases hk : classOf? (cs ++ [c]) with
  | none => rfl
  | some k =>
    have hnot := not_blank_of_class hk c (by simp)
    rw [hc] at hnot
    cases hnot

theorem takeWhile_stop {p : Char → Bool} (hcs : ∀ c ∈ cs, p c = true) (hr : ∀ c ∈ rest.head?, p c = false) :
    (cs ++ rest).takeWhile p = cs := by
  rw [List.takeWhile_append_of_pos hcs]
  cases rest with
  | nil => simp
  | cons c rest => simp [hr c rfl]

theorem first?_append (h : classOf? cs = some k) (hr : Closed cs rest) : Lexeme.first? (cs ++ rest) = some ⟨k, cs⟩ := by
  rcases classOf?_cases h with ⟨hd, rfl⟩ | ⟨hw, rfl⟩ | ho
  · have hdigits := digits_of_isDigits hd
    have hstop : ∀ c ∈ rest.head?, c.isDigit = false := by
      intro c hc
      rw [← isDigits_snoc hd, ← Bool.not_eq_true]
      intro hlonger
      have hnone := hr c hc
      rw [classOf?_digits hlonger] at hnone
      cases hnone
    have hall := takeWhile_stop hdigits hstop
    cases cs with
    | nil => cases hd
    | cons c cs =>
      rw [List.cons_append] at hall ⊢
      rw [first?_of_digit (hdigits c (by simp)), hall]
  · have hstop : ∀ c ∈ rest.head?, isWordChar c = false := by
      intro c hc
      rw [← isWord_snoc hw, ← Bool.not_eq_true]
      intro hlonger
      have hnone := hr c hc
      rw [classOf?_word hlonger] at hnone
      cases hnone
    have hall := takeWhile_stop (wordChars_of_isWord hw) hstop
    cases cs with
    | nil => cases hw
    | cons c cs =>
      rw [isWord, Bool.and_eq_true] at hw
      rw [List.cons_append] at hall ⊢
      rw [first?_of_wordStart hw.1, hall]
      rfl
  · obtain ⟨o, os, rfl, hlen, hod, how, -⟩ := operator_chars ho
    have hone : ∀ xs, spelled? Kind.operators xs = some k → Lexeme.operator? xs = some ⟨k, xs⟩ := by
      intro xs hxs
      simp [Lexeme.operator?, hxs]
    rw [List.cons_append, first?_of_sign hod how]
    match os, rest with
    | [_], rest => simp [hone _ ho]
    | [], [] => simp [hone _ ho]
    | [], c :: rest =>
      have htwo : spelled? Kind.operators [o, c] = none := by
        rw [← classOf?_operator hod how]
        exact hr c rfl
      simp [Lexeme.operator?, htwo, ho]

/-! ## Literals -/

theorem toList_number (n : Nat) : (Scalar.number n).text.toList = Nat.toDigits 10 n := Nat.toList_repr

theorem isDigits_number (n : Nat) : Literal.isDigits (Scalar.number n).text.toList = true := by
  rw [toList_number]
  simp only [Literal.isDigits, Bool.and_eq_true, List.all_eq_true, Bool.not_eq_true', List.isEmpty_eq_false_iff]
  exact ⟨Nat.toDigits_ne_nil, fun c hc => Nat.isDigit_of_mem_toDigits (by decide) (by decide) hc⟩

theorem classOf?_number (n : Nat) : classOf? (Scalar.number n).text.toList = some .integer :=
  classOf?_digits (isDigits_number n)

theorem isLiteral_cases {v : Scalar} {sort : String} (h : Tree.isLiteral v sort = true) :
    (∃ m : Nat, v = .number m ∧ sort = "integer") ∨ ∃ b, v = .truth b ∧ sort = "boolean" := by
  cases v with
  | number i =>
    simp only [Tree.isLiteral, Bool.and_eq_true, decide_eq_true_eq] at h
    obtain ⟨m, rfl⟩ := Int.eq_ofNat_of_zero_le h.2
    exact .inl ⟨m, rfl, h.1⟩
  | truth b =>
    simp only [Tree.isLiteral, decide_eq_true_eq] at h
    exact .inr ⟨b, rfl, h⟩

theorem classOf?_literal {v : Scalar} {sort : String} (h : Tree.isLiteral v sort = true) :
    ∃ k ∈ [Kind.integer, .kwTrue, .kwFalse], classOf? (Tree.literalText v sort).toList = some k := by
  rcases isLiteral_cases h with ⟨n, rfl, rfl⟩ | ⟨b, rfl, rfl⟩
  · exact ⟨.integer, by decide, classOf?_number n⟩
  · cases b with
    | false => exact ⟨.kwFalse, by decide, by decide⟩
    | true => exact ⟨.kwTrue, by decide, by decide⟩

end LambdaSyntax
