/-
  LambdaSyntax.Proofs.Lookahead — a reading looks at no token beyond the one it answers at.

  What comes of a list of tokens is settled by those it passed and the one it stood at in the
  end: the token it was refused at, or the end (`lastSeen`). Where another list agrees up to
  there, what is passed and what stands there are the same (`Agree.body`), and there is one
  outcome for that. So both lists are read alike, whatever else they hold
  (`readTokens_lookahead`).
-/

import LambdaSyntax.Proofs.Limit

namespace LambdaSyntax

variable {xs rest more ts us : List Token} {t : Token}

/-! ## Streams token by token -/

namespace Stream

variable {s : Stream}

theorem tokens_of_body (h : s.body = xs ++ rest) : ∃ more, s.tokens = xs ++ rest.headD s.closing :: more := by
  cases rest with
  | nil => exact ⟨[], by rw [tokens, h]; simp⟩
  | cons t rest => exact ⟨rest ++ [s.closing], by rw [tokens, h]; simp⟩

theorem body_of_tokens (h : s.tokens = xs ++ t :: more) : ∃ rest, s.body = xs ++ rest ∧ rest.headD s.closing = t := by
  rw [tokens] at h
  rcases List.eq_nil_or_concat more with rfl | ⟨ys, c, rfl⟩
  · obtain ⟨hbody, hclosing⟩ := List.append_inj' h rfl
    exact ⟨[], by simpa using hbody, by simpa using hclosing⟩
  · rw [List.concat_eq_append, ← List.cons_append, ← List.append_assoc] at h
    exact ⟨t :: ys, (List.append_inj' h rfl).1, rfl⟩

end Stream

/-- With their ends the lists have the same tokens up to an index. -/
def Agree (ts us : List Token) (p : Int) : Prop :=
  ∀ i : Nat, (i : Int) ≤ p → (Stream.ofTokens us).tokens[i]? = (Stream.ofTokens ts).tokens[i]?

theorem Agree.tokens (h : Agree ts us xs.length) (ht : (Stream.ofTokens ts).tokens = xs ++ t :: more) :
    ∃ more', (Stream.ofTokens us).tokens = xs ++ t :: more' := by
  have htake : (Stream.ofTokens us).tokens.take (xs.length + 1) = (Stream.ofTokens ts).tokens.take (xs.length + 1) := by
    apply List.ext_getElem?
    intro i
    rw [List.getElem?_take, List.getElem?_take]
    split
    · exact h i (by omega)
    · rfl
  have hxs : (Stream.ofTokens ts).tokens.take (xs.length + 1) = xs ++ [t] := by
    rw [ht, List.append_cons]
    exact List.take_left' (by simp)
  refine ⟨(Stream.ofTokens us).tokens.drop (xs.length + 1), ?_⟩
  rw [List.append_cons, ← hxs, ← htake, List.take_append_drop]

/-- What is passed and what stands behind it are the same in both lists. -/
theorem Agree.body (h : Agree ts us xs.length) (hb : (Stream.ofTokens ts).body = xs ++ rest) :
    ∃ rest', (Stream.ofTokens us).body = xs ++ rest' ∧
      rest'.headD (Stream.ofTokens us).closing = rest.headD (Stream.ofTokens ts).closing := by
  obtain ⟨more, ht⟩ := Stream.tokens_of_body hb
  obtain ⟨more', hu⟩ := h.tokens ht
  exact Stream.body_of_tokens hu

/-! ## The last token seen -/

namespace Parse

/-- The index of the token that a reading is refused at, or else of the first end. -/
def lastSeen (ts : List Token) : Except SyntaxError Marked → Int
  | .ok _ => (Stream.ofTokens ts).tokens.findIdx (·.kind = .finish)
  | .error e => e.position

theorem findIdx_finish (hx : ∀ t ∈ xs, Passable t) (ht : t.kind = .finish) :
    (xs ++ t :: more).findIdx (·.kind = .finish) = xs.length := by
  have hxs : xs.findIdx (·.kind = .finish) = xs.length :=
    List.findIdx_eq_length.mpr fun x hmem => decide_eq_false (hx x hmem).1
  rw [List.findIdx_append, hxs]
  simp [List.findIdx_cons, ht]

/-- An error does not depend on anything but the limit. -/
theorem Raises.of_limit {S S' : Setting} {i : Nat} {r : Reason} {e : SyntaxError} (h : Raises S t i r e)
    (hl : S'.limit = S.limit) : Raises S' t i r e := by
  by_cases hr : r = .tooDeep
  · subst hr
    cases h
    rw [← hl]
    exact .tooDeep
  · exact h.setting hr S'

end Parse

open Parse

/-- Lists that agree up to the last token that is seen of one of them are read alike. -/
theorem readTokens_lookahead (g : Goal) (limit : Int) (ts us : List Token)
    (h : Agree ts us (lastSeen ts (readTokens g limit ts))) : readTokens g limit us = readTokens g limit ts := by
  refine Outcome.readTokens_eq ?_
  have hout := readTokens_outcome g limit ts
  generalize readTokens g limit ts = x at hout h
  cases hout with
  | @read xs rest u f hb hr hfin =>
    have hfirst : (Stream.ofTokens ts).tokens.findIdx (·.kind = .finish) = xs.length := by
      obtain ⟨more, ht⟩ := Stream.tokens_of_body hb
      rw [ht]
      exact findIdx_finish hr.passable hfin
    rw [lastSeen, hfirst] at h
    obtain ⟨rest', hb', hhead⟩ := h.body hb
    exact .read hb' hr (hhead ▸ hfin)
  | @stopped xs rest r e hb hs he =>
    rw [lastSeen, he.position] at h
    obtain ⟨rest', hb', hhead⟩ := h.body hb
    exact .stopped hb' hs (hhead ▸ he.of_limit rfl)
  | @leftOver xs rest u f e hb hr he =>
    rw [lastSeen, he.position] at h
    obtain ⟨rest', hb', hhead⟩ := h.body hb
    exact .leftOver hb' hr (hhead ▸ he.of_limit rfl)

theorem readTokens_lookahead_paren :
    Agree [sample .identifier, sample .rightParen, sample .plus] [sample .identifier, sample .rightParen] 1 ∧
    readTokens .expression 1 [sample .identifier, sample .rightParen] =
      readTokens .expression 1 [sample .identifier, sample .rightParen, sample .plus] := by
  have h : Agree [sample .identifier, sample .rightParen, sample .plus] [sample .identifier, sample .rightParen] 1 := by
    intro i hi
    have hle : i ≤ 1 := by omega
    match i, hle with
    | 0, _ => rfl
    | 1, _ => rfl
  exact ⟨h, readTokens_lookahead .expression 1 _ _ h⟩

end LambdaSyntax
