/-
  LambdaSyntax.Proofs.Quoted — text between quotes is told from whatever stands behind it.

  `unescaped?` reads one character of a text between quotes back, with its escape if it has one: letters
  and digits behind a backslash say what was written, and a quote or another backslash stands for
  itself. It takes back what `escape` writes, whatever follows (`unescaped?_escape`), since the digits
  of a code point are of a width that its letter gives (`hexValue_hex`). No escape begins with
  the quote in use (`escape_head`), so the first quote that is not escaped is the end of the text, and
  two quoted texts that open one text are one (`quotedChars_inj`).
-/

import LambdaSyntax.Text.Quoted
import Mathlib.Algebra.Group.Nat.Defs

namespace LambdaSyntax.Text

variable {q c : Char} {cs ds r s : List Char}

/-! ## Digits -/

def hexDigitValue (c : Char) : Nat := if c.toNat < 58 then c.toNat - 48 else c.toNat - 87

def hexValue (cs : List Char) : Nat := cs.foldl (fun n c => 16 * n + hexDigitValue c) 0

theorem hexDigitValue_hexDigit (n : Nat) : hexDigitValue (hexDigit (n % 16)) = n % 16 := by
  have hall : ∀ i : Fin 16, hexDigitValue (hexDigit i) = i := by decide
  exact hall ⟨n % 16, Nat.mod_lt _ (by decide)⟩

theorem length_hex (width n : Nat) : (hex width n).length = width := by
  induction width generalizing n with
  | zero => rfl
  | succ width ih => rw [hex, List.length_append, ih, List.length_singleton]

/-- The digits hold a number that is not too wide for them. -/
theorem hexValue_hex {width n : Nat} (h : n < 16 ^ width) : hexValue (hex width n) = n := by
  induction width generalizing n with
  | zero =>
    obtain rfl : n = 0 := by omega
    rfl
  | succ width ih =>
    have hfront : hexValue (hex width (n / 16)) = n / 16 := ih (by rw [Nat.pow_succ] at h; omega)
    rw [hexValue, hex, List.foldl_append, ← hexValue, hfront, List.foldl_cons, List.foldl_nil, hexDigitValue_hexDigit]
    omega

/-! ## One character -/

/-- A character that is written by so many digits, and what is behind them. -/
def numbered (width : Nat) (cs : List Char) : Char × List Char :=
  (Char.ofNat (hexValue (cs.take width)), cs.drop width)

/-- The first character of what stands between quotes, and the rest. -/
def unescaped? : List Char → Option (Char × List Char)
  | [] => none
  | '\\' :: c :: cs =>
    if c = 'n' then some ('\n', cs)
    else if c = 'r' then some ('\r', cs)
    else if c = 't' then some ('\t', cs)
    else if c = 'x' then some (numbered 2 cs)
    else if c = 'u' then some (numbered 4 cs)
    else if c = 'U' then some (numbered 8 cs)
    else some (c, cs)
  | c :: cs => some (c, cs)

theorem numbered_hex {width : Nat} (h : c.toNat < 16 ^ width) : numbered width (hex width c.toNat ++ r) = (c, r) := by
  rw [numbered, List.take_left' (length_hex ..), List.drop_left' (length_hex ..), hexValue_hex h, Char.ofNat_toNat]

theorem unescaped?_codePoint (c : Char) (r : List Char) : unescaped? (codePoint c ++ r) = some (c, r) := by
  unfold codePoint
  split
  · exact congrArg some (numbered_hex (by omega))
  split
  · exact congrArg some (numbered_hex (by omega))
  · have hbound : c.toNat < 2 ^ 32 := c.val.toNat_lt
    exact congrArg some (numbered_hex (by omega))

/-- The characters that can be quotes. -/
def quotes : List Char := ['\'', '"']

theorem quoteFor_mem (cs : List Char) : quoteFor cs ∈ quotes := by
  unfold quoteFor
  split <;> decide

/-- Behind a backslash the quotes and the backslash are themselves. -/
theorem unescaped?_backslash (h : c ∈ quotes ∨ c = '\\') (r : List Char) : unescaped? ('\\' :: c :: r) = some (c, r) := by
  have hc : c = '\'' ∨ c = '"' ∨ c = '\\' := by simpa [quotes, or_assoc] using h
  rcases hc with rfl | rfl | rfl <;> simp [unescaped?]

theorem unescaped?_escape (hq : q ∈ quotes) (c : Char) (r : List Char) : unescaped? (escape q c ++ r) = some (c, r) := by
  unfold escape
  split
  · rename_i h
    exact unescaped?_backslash (h.imp_left fun hc => hc ▸ hq) r
  rename_i h
  split
  · rename_i hc
    rw [hc]
    rfl
  split
  · rename_i hc
    rw [hc]
    rfl
  split
  · rename_i hc
    rw [hc]
    rfl
  split
  · have hc : c ≠ '\\' := fun hc => h (.inr hc)
    cases r <;> simp [unescaped?, hc]
  · exact unescaped?_codePoint c r

/-! ## Whole texts -/

theorem escape_head (hq : q ∈ quotes) (c : Char) : ∃ d ds, escape q c = d :: ds ∧ d ≠ q := by
  have hback : '\\' ≠ q := by
    rintro rfl
    revert hq
    decide
  unfold escape
  split
  · exact ⟨_, _, rfl, hback⟩
  rename_i h
  split
  · exact ⟨_, _, rfl, hback⟩
  split
  · exact ⟨_, _, rfl, hback⟩
  split
  · exact ⟨_, _, rfl, hback⟩
  split
  · exact ⟨_, _, rfl, fun hc => h (.inl hc)⟩
  · unfold codePoint
    split
    · exact ⟨_, _, rfl, hback⟩
    split <;> exact ⟨_, _, rfl, hback⟩

/-- What stands before the closing quote is told from what stands behind it. -/
theorem escaped_inj (hq : q ∈ quotes) (h : cs.flatMap (escape q) ++ q :: r = ds.flatMap (escape q) ++ q :: s) :
    cs = ds ∧ r = s := by
  induction cs generalizing ds with
  | nil =>
    cases ds with
    | nil => exact ⟨rfl, (List.cons.inj h).2⟩
    | cons d ds =>
      obtain ⟨e, es, hd, he⟩ := escape_head hq d
      rw [List.flatMap_cons, hd] at h
      exact absurd (List.cons.inj h).1.symm he
  | cons c cs ih =>
    cases ds with
    | nil =>
      obtain ⟨e, es, hc, he⟩ := escape_head hq c
      rw [List.flatMap_cons, hc] at h
      exact absurd (List.cons.inj h).1 he
    | cons d ds =>
      rw [List.flatMap_cons, List.flatMap_cons, List.append_assoc, List.append_assoc] at h
      have hread := congrArg unescaped? h
      rw [unescaped?_escape hq, unescaped?_escape hq] at hread
      obtain ⟨rfl, hrest⟩ := Prod.mk.inj (Option.some.inj hread)
      obtain ⟨rfl, hrs⟩ := ih hrest
      exact ⟨rfl, hrs⟩

theorem quotedChars_inj (h : quotedChars cs ++ r = quotedChars ds ++ s) : cs = ds ∧ r = s := by
  simp only [quotedChars, List.cons_append, List.append_assoc, List.nil_append] at h
  obtain ⟨hq, hrest⟩ := List.cons.inj h
  rw [hq] at hrest
  exact escaped_inj (quoteFor_mem ds) hrest

end LambdaSyntax.Text
