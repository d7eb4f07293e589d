/-
  LambdaSyntax.Proofs.Utf8 — strict reading takes texts in UTF-8 back to their characters, and nothing else.

  The four widths are taken one by one (`first_one` to `first_four`). The bounds that the first
  byte sets on the second are where the shorter form, the surrogates and the last code point make
  a difference (`lead?_three`, `lead?_four`); characters keep clear of all three. So the reading
  of an encoded text never fails (`decode_encode`). Within the same bounds the bytes of a character
  that is read are the ones that it is encoded by (`first_sound`), so what is read at all is an
  encoded text (`decode_eq_ok_iff`).
-/

import LambdaSyntax.Text.Utf8

namespace LambdaSyntax.Text.Utf8

/-- The bytes of a text. -/
def encode (cs : List Char) : List UInt8 := cs.flatMap String.utf8EncodeChar

variable {b x v low high left read value : Nat} {bs rest : List UInt8}

/-! ## First bytes -/

theorem lead?_two (hb : 0xc2 ≤ b) (hb' : b < 0xe0) : lead? b = some (2, 0x80, 0xbf) := by
  simp only [lead?]
  rw [if_neg (by omega), if_neg (by omega), if_pos hb']

theorem lead?_three (hb : 0xe0 ≤ b) (hb' : b < 0xf0) (hx : 0x80 ≤ x) (hx' : x ≤ 0xbf) (hlow : b = 0xe0 → 0xa0 ≤ x)
    (hhigh : b = 0xed → x ≤ 0x9f) : ∃ low high, lead? b = some (3, low, high) ∧ low ≤ x ∧ x ≤ high := by
  simp only [lead?]
  rw [if_neg (by omega), if_neg (by omega), if_neg (by omega)]
  by_cases h : b = 0xe0
  · exact ⟨0xa0, 0xbf, by rw [if_pos h], hlow h, hx'⟩
  by_cases h' : b = 0xed
  · exact ⟨0x80, 0x9f, by rw [if_neg h, if_pos h'], hx, hhigh h'⟩
  · exact ⟨0x80, 0xbf, by rw [if_neg h, if_neg h', if_pos hb'], hx, hx'⟩

theorem lead?_four (hb : 0xf0 ≤ b) (hb' : b ≤ 0xf4) (hx : 0x80 ≤ x) (hx' : x ≤ 0xbf) (hlow : b = 0xf0 → 0x90 ≤ x)
    (hhigh : b = 0xf4 → x ≤ 0x8f) : ∃ low high, lead? b = some (4, low, high) ∧ low ≤ x ∧ x ≤ high := by
  simp only [lead?]
  rw [if_neg (by omega), if_neg (by omega), if_neg (by omega), if_neg (by omega), if_neg (by omega), if_neg (by omega)]
  by_cases h : b = 0xf0
  · exact ⟨0x90, 0xbf, by rw [if_pos h], hlow h, hx'⟩
  by_cases h' : b < 0xf4
  · exact ⟨0x80, 0xbf, by rw [if_neg h, if_pos h'], hx, hx'⟩
  · exact ⟨0x80, 0x8f, by rw [if_neg h, if_neg h', if_pos (by omega)], hx, hhigh (by omega)⟩

theorem continued_cons (hlow : low ≤ b) (hhigh : b ≤ high) (hb : b < 256) :
    continued (left + 1) low high read value (UInt8.ofNat b :: bs) =
      continued left 0x80 0xbf (read + 1) (value * 64 + (b - 0x80)) bs := by
  have hnat : (UInt8.ofNat b).toNat = b := UInt8.toNat_ofNat_of_lt' hb
  rw [continued, hnat, if_pos ⟨hlow, hhigh⟩]

theorem first_of_lead (hb : b < 256) (hlead : lead? b = some (left + 1, low, high))
    (h : continued left low high 1 (leadBits (left + 1) b) bs = .ok value) :
    first (UInt8.ofNat b) bs = .ok (Char.ofNat value, left + 1) := by
  have hnat : (UInt8.ofNat b).toNat = b := UInt8.toNat_ofNat_of_lt' hb
  rw [first, hnat, hlead]
  simp [h]

/-! ## Characters of each width -/

theorem first_one (hv : v ≤ 127) : first (UInt8.ofNat v) rest = .ok (Char.ofNat v, 1) := by
  have hlead : lead? v = some (1, 0, 0) := by rw [lead?, if_pos (by omega)]
  exact first_of_lead (by omega) hlead rfl

theorem first_two (hv : 127 < v) (hv' : v ≤ 2047) :
    first (UInt8.ofNat (v / 64 % 32 + 192)) (UInt8.ofNat (v % 64 + 128) :: rest) = .ok (Char.ofNat v, 2) := by
  refine first_of_lead (by omega) (lead?_two (by omega) (by omega)) ?_
  rw [continued_cons (by omega) (by omega) (by omega), continued]
  simp [leadBits]
  omega

theorem first_three (hv : 2047 < v) (hv' : v ≤ 65535) (hsurrogate : v < 0xd800 ∨ 0xdfff < v) :
    first (UInt8.ofNat (v / 4096 % 16 + 224)) (UInt8.ofNat (v / 64 % 64 + 128) :: UInt8.ofNat (v % 64 + 128) :: rest) =
      .ok (Char.ofNat v, 3) := by
  obtain ⟨low, high, hlead, hlow, hhigh⟩ : ∃ low high, lead? (v / 4096 % 16 + 224) = some (3, low, high) ∧
      low ≤ v / 64 % 64 + 128 ∧ v / 64 % 64 + 128 ≤ high :=
    lead?_three (by omega) (by omega) (by omega) (by omega) (by omega) (by omega)
  refine first_of_lead (by omega) hlead ?_
  rw [continued_cons hlow hhigh (by omega), continued_cons (by omega) (by omega) (by omega), continued]
  simp [leadBits]
  omega

theorem first_four (hv : 65535 < v) (hv' : v ≤ 0x10ffff) :
    first (UInt8.ofNat (v / 262144 % 8 + 240)) (UInt8.ofNat (v / 4096 % 64 + 128) :: UInt8.ofNat (v / 64 % 64 + 128) ::
      UInt8.ofNat (v % 64 + 128) :: rest) = .ok (Char.ofNat v, 4) := by
  obtain ⟨low, high, hlead, hlow, hhigh⟩ : ∃ low high, lead? (v / 262144 % 8 + 240) = some (4, low, high) ∧
      low ≤ v / 4096 % 64 + 128 ∧ v / 4096 % 64 + 128 ≤ high :=
    lead?_four (by omega) (by omega) (by omega) (by omega) (by omega) (by omega)
  refine first_of_lead (by omega) hlead ?_
  rw [continued_cons hlow hhigh (by omega), continued_cons (by omega) (by omega) (by omega),
    continued_cons (by omega) (by omega) (by omega), continued]
  simp [leadBits]
  omega

/-- A character that is encoded is read back. -/
theorem first_encoded (c : Char) (rest : List UInt8) :
    ∃ b bs, String.utf8EncodeChar c = b :: bs ∧ first b (bs ++ rest) = .ok (c, bs.length + 1) := by
  have hval : Char.ofNat c.val.toNat = c := Char.ofNat_toNat c
  have hvalid : c.val.toNat < 0xd800 ∨ 0xdfff < c.val.toNat ∧ c.val.toNat < 0x110000 := c.valid
  generalize hv : c.val.toNat = v at hval hvalid
  simp only [String.utf8EncodeChar, hv]
  by_cases h1 : v ≤ 127
  · rw [if_pos h1]
    exact ⟨_, _, rfl, by rw [List.nil_append, first_one h1, hval]; rfl⟩
  by_cases h2 : v ≤ 2047
  · rw [if_neg h1, if_pos h2]
    exact ⟨_, _, rfl, (first_two (by omega) h2).trans (by rw [hval]; rfl)⟩
  by_cases h3 : v ≤ 65535
  · rw [if_neg h1, if_neg h2, if_pos h3]
    exact ⟨_, _, rfl, (first_three (by omega) h3 (by omega)).trans (by rw [hval]; rfl)⟩
  · rw [if_neg h1, if_neg h2, if_neg h3]
    exact ⟨_, _, rfl, (first_four (by omega) (by omega)).trans (by rw [hval]; rfl)⟩

/-! ## Texts -/

theorem decodeFrom_skip (bs rest : List UInt8) (pos : Nat) :
    decodeFrom bs.length pos (bs ++ rest) = decodeFrom 0 (pos + bs.length) rest := by
  induction bs generalizing pos with
  | nil => rfl
  | cons b bs ih =>
    rw [List.length_cons, List.cons_append, decodeFrom, ih, Nat.add_assoc, Nat.add_comm 1]

theorem decodeFrom_encode (cs : List Char) (pos : Nat) : decodeFrom 0 pos (encode cs) = .ok cs := by
  induction cs generalizing pos with
  | nil => rfl
  | cons c cs ih =>
    obtain ⟨b, bs, hbytes, hfirst⟩ := first_encoded c (encode cs)
    have hencode : encode (c :: cs) = b :: (bs ++ encode cs) := by
      rw [encode, List.flatMap_cons, hbytes]
      rfl
    rw [hencode, decodeFrom, hfirst]
    simp only [Nat.add_sub_cancel, decodeFrom_skip, ih]

theorem decode_encode (cs : List Char) : decode (encode cs) = .ok cs := decodeFrom_encode cs 0

/-! ## What is read is encoded -/

theorem lead?_cases {width : Nat} (h : lead? b = some (width, low, high)) :
    width = 1 ∧ b ≤ 127 ∨
    width = 2 ∧ 0xc2 ≤ b ∧ b < 0xe0 ∧ 0x80 ≤ low ∧ high ≤ 0xbf ∨
    width = 3 ∧ 0xe0 ≤ b ∧ b < 0xf0 ∧ 0x80 ≤ low ∧ high ≤ 0xbf ∧ (b = 0xe0 → 0xa0 ≤ low) ∧ (b = 0xed → high ≤ 0x9f) ∨
    width = 4 ∧ 0xf0 ≤ b ∧ b ≤ 0xf4 ∧ 0x80 ≤ low ∧ high ≤ 0xbf ∧ (b = 0xf0 → 0x90 ≤ low) ∧ (b = 0xf4 → high ≤ 0x8f) := by
  unfold lead? at h
  repeat' split at h
  all_goals
    cases h
    try omega

theorem continued_eq_ok (h : continued (left + 1) low high read value bs = .ok v) :
    ∃ x rest, bs = x :: rest ∧ (low ≤ x.toNat ∧ x.toNat ≤ high) ∧
      continued left 0x80 0xbf (read + 1) (value * 64 + (x.toNat - 0x80)) rest = .ok v := by
  cases bs with
  | nil => cases h
  | cons x rest =>
    rw [continued] at h
    split at h
    · rename_i hx
      exact ⟨x, rest, rfl, hx, h⟩
    · cases h

theorem toNat_ofNat (hv : v < 0xd800 ∨ 0xdfff < v ∧ v < 0x110000) : (Char.ofNat v).val.toNat = v := by
  have hvalid : v.isValidChar := hv
  rw [Char.ofNat, dif_pos hvalid]
  rfl

theorem byte_eq {n : Nat} {x : UInt8} (h : n = x.toNat) : UInt8.ofNat n = x := by
  rw [h, UInt8.ofNat_toNat]

theorem encode_one {b : UInt8} (hv : v = b.toNat) (hb : b.toNat ≤ 127) : String.utf8EncodeChar (Char.ofNat v) = [b] := by
  simp only [String.utf8EncodeChar, toNat_ofNat (show v < 0xd800 ∨ _ by omega)]
  rw [if_pos (by omega), byte_eq hv]

theorem encode_two {b x : UInt8} (hv : v = (b.toNat - 0xc0) * 64 + (x.toNat - 0x80)) (hb : 0xc2 ≤ b.toNat ∧ b.toNat < 0xe0)
    (hx : 0x80 ≤ x.toNat ∧ x.toNat ≤ 0xbf) : String.utf8EncodeChar (Char.ofNat v) = [b, x] := by
  simp only [String.utf8EncodeChar, toNat_ofNat (show v < 0xd800 ∨ _ by omega)]
  rw [if_neg (by omega), if_pos (by omega), byte_eq (x := b) (by omega), byte_eq (x := x) (by omega)]

theorem encode_three {b x y : UInt8} (hv : v = ((b.toNat - 0xe0) * 64 + (x.toNat - 0x80)) * 64 + (y.toNat - 0x80))
    (hb : 0xe0 ≤ b.toNat ∧ b.toNat < 0xf0) (hx : 0x80 ≤ x.toNat ∧ x.toNat ≤ 0xbf)
    (hedge : (b.toNat = 0xe0 → 0xa0 ≤ x.toNat) ∧ (b.toNat = 0xed → x.toNat ≤ 0x9f))
    (hy : 0x80 ≤ y.toNat ∧ y.toNat ≤ 0xbf) : String.utf8EncodeChar (Char.ofNat v) = [b, x, y] := by
  simp only [String.utf8EncodeChar, toNat_ofNat (show v < 0xd800 ∨ 0xdfff < v ∧ v < 0x110000 by omega)]
  rw [if_neg (by omega), if_neg (by omega), if_pos (by omega), byte_eq (x := b) (by omega), byte_eq (x := x) (by omega),
    byte_eq (x := y) (by omega)]

theorem encode_four {b x y z : UInt8}
    (hv : v = (((b.toNat - 0xf0) * 64 + (x.toNat - 0x80)) * 64 + (y.toNat - 0x80)) * 64 + (z.toNat - 0x80))
    (hb : 0xf0 ≤ b.toNat ∧ b.toNat ≤ 0xf4) (hx : 0x80 ≤ x.toNat ∧ x.toNat ≤ 0xbf)
    (hedge : (b.toNat = 0xf0 → 0x90 ≤ x.toNat) ∧ (b.toNat = 0xf4 → x.toNat ≤ 0x8f))
    (hy : 0x80 ≤ y.toNat ∧ y.toNat ≤ 0xbf) (hz : 0x80 ≤ z.toNat ∧ z.toNat ≤ 0xbf) :
    String.utf8EncodeChar (Char.ofNat v) = [b, x, y, z] := by
  simp only [String.utf8EncodeChar, toNat_ofNat (show v < 0xd800 ∨ 0xdfff < v ∧ v < 0x110000 by omega)]
  rw [if_neg (by omega), if_neg (by omega), if_neg (by omega), byte_eq (x := b) (by omega), byte_eq (x := x) (by omega),
    byte_eq (x := y) (by omega), byte_eq (x := z) (by omega)]

/-- The bytes that were taken for a character are the ones that it is encoded by. -/
theorem first_sound {b : UInt8} {c : Char} {width : Nat} (h : first b bs = .ok (c, width)) :
    ∃ more rest, bs = more ++ rest ∧ width = more.length + 1 ∧ String.utf8EncodeChar c = b :: more := by
  unfold first at h
  split at h
  · cases h
  rename_i low high hlead
  split at h
  · rename_i value hvalue
    cases h
    rcases lead?_cases hlead with ⟨rfl, hb⟩ | ⟨rfl, htwo⟩ | ⟨rfl, hthree⟩ | ⟨rfl, hfour⟩
    · exact ⟨[], bs, rfl, rfl, encode_one (Except.ok.inj hvalue).symm hb⟩
    · obtain ⟨x, rest, rfl, hx, hvalue⟩ := continued_eq_ok hvalue
      exact ⟨[x], rest, rfl, rfl, encode_two (Except.ok.inj hvalue).symm (by omega) (by omega)⟩
    · obtain ⟨x, rest, rfl, hx, hvalue⟩ := continued_eq_ok hvalue
      obtain ⟨y, rest, rfl, hy, hvalue⟩ := continued_eq_ok hvalue
      have hbytes := encode_three (Except.ok.inj hvalue).symm (by omega) (by omega) ⟨by omega, by omega⟩ hy
      exact ⟨[x, y], rest, rfl, rfl, hbytes⟩
    · obtain ⟨x, rest, rfl, hx, hvalue⟩ := continued_eq_ok hvalue
      obtain ⟨y, rest, rfl, hy, hvalue⟩ := continued_eq_ok hvalue
      obtain ⟨z, rest, rfl, hz, hvalue⟩ := continued_eq_ok hvalue
      have hbytes := encode_four (Except.ok.inj hvalue).symm (by omega) (by omega) ⟨by omega, by omega⟩ hy hz
      exact ⟨[x, y, z], rest, rfl, rfl, hbytes⟩
  · cases h

theorem decodeFrom_sound {cs : List Char} {pos : Nat} (h : decodeFrom 0 pos bs = .ok cs) : bs = encode cs := by
  -- a character takes several bytes at once, so the induction is on the characters
  induction cs generalizing pos bs with
  | nil =>
    cases bs with
    | nil => rfl
    | cons b bs =>
      rw [decodeFrom] at h
      split at h
      · cases h
      split at h <;> cases h
  | cons c cs ih =>
    cases bs with
    | nil => cases h
    | cons b bs =>
      rw [decodeFrom] at h
      split at h
      · cases h
      rename_i hfirst
      obtain ⟨more, rest, rfl, rfl, hbytes⟩ := first_sound hfirst
      rw [Nat.add_sub_cancel, decodeFrom_skip] at h
      split at h
      · rename_i hrest
        cases h
        rw [encode, List.flatMap_cons, hbytes, ← encode, ← ih hrest]
        rfl
      · cases h

/-- What is read is encoded text, and all of it is read. -/
theorem decode_eq_ok_iff {cs : List Char} : decode bs = .ok cs ↔ bs = encode cs :=
  ⟨decodeFrom_sound, fun h => h ▸ decode_encode cs⟩

end LambdaSyntax.Text.Utf8
