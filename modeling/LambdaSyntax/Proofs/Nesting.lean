/-
  LambdaSyntax.Proofs.Nesting — only input that nests is too deep.

  Four kinds of token take a reading one level down: a left parenthesis, `if`, `fun` and an arrow.
  A right parenthesis leads back up. `nesting` counts both in a row of tokens; the levels that
  `if`, `fun` and arrows open are never taken back in this count.

  What is read as a whole closes all parentheses that it opens, so its count is not negative
  (`Reads.nesting_nonneg`). Going into a part of a construct uses up no more levels than the tokens
  before the part open (`Opens.le_nesting`, `Takes.le_nesting`). So where no level is left, as many were
  opened as the limit allows (`Stops.le_nesting`, `readTokens_nesting`).
-/

import LambdaSyntax.Proofs.Limit

namespace LambdaSyntax

/-! ## Levels by the tokens -/

/-- The levels that the tokens open, less the parentheses that they close. -/
def nesting (ts : List Token) : Int :=
  ts.countP (·.kind = .leftParen) - ts.countP (·.kind = .rightParen) + ts.countP (·.kind = .kwIf) +
    ts.countP (·.kind = .kwFun) + ts.countP (·.kind = .arrow)

/-- The kinds that open a level. -/
def levelStart : KindSet := .ofList [.leftParen, .kwIf, .kwFun, .arrow]

/-- What a token of this kind adds to the count. -/
def Kind.opening : Kind → Int
  | .leftParen | .kwIf | .kwFun | .arrow => 1
  | .rightParen => -1
  | _ => 0

section

variable {k : Kind} {ts us : List Token}

theorem Kind.opening_nonneg (h : k ≠ .rightParen) : 0 ≤ k.opening := by
  cases k with
  | rightParen => exact absurd rfl h
  | _ => decide

theorem Kind.opening_nonpos (h : k ∉ levelStart) : k.opening ≤ 0 := by
  cases k with
  | leftParen | kwIf | kwFun | arrow => exact absurd (by decide) h
  | _ => decide

@[simp] theorem nesting_nil : nesting [] = 0 := rfl

@[simp] theorem nesting_cons (t : Token) (ts : List Token) : nesting (t :: ts) = t.kind.opening + nesting ts := by
  simp only [nesting, List.countP_cons]
  cases t.kind <;> simp [Kind.opening] <;> omega

@[simp] theorem nesting_append (ts us : List Token) : nesting (ts ++ us) = nesting ts + nesting us := by
  simp only [nesting, List.countP_append]
  omega

theorem nesting_nonpos (h : ∀ t ∈ ts, t.kind ∉ levelStart) : nesting ts ≤ 0 := by
  induction ts with
  | nil => exact Int.le_refl 0
  | cons t ts ih =>
    rw [List.forall_mem_cons] at h
    have ht := Kind.opening_nonpos h.1
    have hts := ih h.2
    rw [nesting_cons]
    omega

end

namespace Parse

variable {c d : Tier} {n m : Nat} {ts : List Token} {u : Marked} {f : KindSet} {r : Reason} {t : Token}

theorem opening_operator {α : Type} {op? : Kind → Option α} {op : α} (h : op? t.kind = some op)
    (hr : op? .rightParen = none) : 0 ≤ t.kind.opening := by
  refine Kind.opening_nonneg fun hk => ?_
  rw [hk, hr] at h
  cases h

theorem Reads.nesting_nonneg (h : Reads c n ts u f) : 0 ≤ nesting ts := by
  induction h with
  | cond hi _ hth _ hel _ ihc ihy ihz =>
    simp only [nesting_append, nesting_cons, hi, hth, hel, Kind.opening]
    omega
  | func hf hx h₁ _ h₂ _ his _ ihp ihr ihb =>
    simp only [nesting_append, nesting_cons, hf, hx, h₁, h₂, his, Kind.opening]
    omega
  | comparison _ ih | sum _ ih | factor _ ih | application _ ih | term _ ih | atomicType _ ih => exact ih
  | compare _ ho _ ihl ihr | add _ ho _ ihl ihr | mul _ ho _ ihl ihr =>
    have hop := opening_operator ho rfl
    simp only [nesting_append, nesting_cons]
    omega
  | apply _ _ ihf iha =>
    rw [nesting_append]
    omega
  | integer hk | trueWord hk | falseWord hk | var hk | int hk | bool hk => simp [hk, Kind.opening]
  | group hl _ hr ih | typeGroup hl _ hr ih =>
    simp only [nesting_append, nesting_cons, nesting_nil, hl, hr, Kind.opening]
    omega
  | arrow _ ho _ ihp ihr =>
    simp only [nesting_append, nesting_cons, ho, Kind.opening]
    omega

/-! ## Levels by the limit -/

/-- An expression or a type enters its own level first; what is below it stands inside that level. -/
def entered : Tier → Nat
  | .expression | .type => 0
  | _ => 1

/-- Going into a part uses up no more levels than the tokens before it open. -/
theorem Opens.le_nesting (h : Opens c n ts d m) : (n + entered c : Int) ≤ m + entered d + nesting ts := by
  cases h with
  | condition hi | group hi | typeGroup hi => simp [hi, entered, Kind.opening]
  | yes hi hc hth =>
    have hcond := hc.nesting_nonneg
    simp only [nesting_append, nesting_cons, nesting_nil, hi, hth, Kind.opening, entered]
    omega
  | no hi hc hth hy hel =>
    have hcond := hc.nesting_nonneg
    have hyes := hy.nesting_nonneg
    simp only [nesting_append, nesting_cons, nesting_nil, hi, hth, hel, Kind.opening, entered]
    omega
  | domain hf hx h₁ => simp [hf, hx, h₁, entered, Kind.opening]
  | codomain hf hx h₁ hp h₂ =>
    have hdomain := hp.nesting_nonneg
    simp only [nesting_append, nesting_cons, nesting_nil, hf, hx, h₁, h₂, Kind.opening, entered]
    omega
  | body hf hx h₁ hp h₂ hr his =>
    have hdomain := hp.nesting_nonneg
    have hcodomain := hr.nesting_nonneg
    simp only [nesting_append, nesting_cons, nesting_nil, hf, hx, h₁, h₂, his, Kind.opening, entered]
    omega
  | left | summand | multiplicand | function | atomicType => simp [entered]
  | right hl ho | nextSummand hl ho | nextMultiplicand hl ho =>
    have hleft := hl.nesting_nonneg
    have hop := opening_operator ho rfl
    simp only [nesting_append, nesting_cons, nesting_nil, entered]
    omega
  | result hp ho =>
    have hdomain := hp.nesting_nonneg
    simp only [nesting_append, nesting_cons, nesting_nil, ho, Kind.opening, entered]
    omega

theorem Takes.le_nesting (h : Takes c n ts d m) : (n + entered c : Int) ≤ m + entered d + nesting ts := by
  cases h with
  | comparison => simp [entered]
  | argument hf =>
    have hfunction := hf.nesting_nonneg
    simp only [entered]
    omega

/-- Where no level is left, the tokens that were passed opened all there were. -/
theorem Stops.le_nesting (h : Stops c n ts r) (hr : r = .tooDeep) : (n + entered c : Int) ≤ nesting ts := by
  induction h with
  | halt h =>
    subst hr
    cases h <;> exact Int.le_refl 0
  | inside ho _ ih =>
    have hopened := ho.le_nesting
    have hrest := ih hr
    rw [nesting_append]
    omega
  | taken ht _ _ ih =>
    have hopened := ht.le_nesting
    have hrest := ih hr
    rw [nesting_append]
    omega

end Parse

/-! ## Whole readings -/

theorem Stream.body_prefix (ts : List Token) : (ofTokens ts).body <+: ts := by
  unfold ofTokens
  split
  · split
    · exact List.dropLast_prefix ts
    · exact List.prefix_refl ts
  · exact List.prefix_refl ts

open Parse

/-- A list of tokens is too deep only at a place before which as many levels are opened as the
    limit allows. So one without tokens that open a level is never too deep, however long it is,
    if the limit allows any level at all. -/
theorem readTokens_nesting (g : Goal) (limit : Int) (ts : List Token) :
    (∀ t p l, readTokens g limit ts = .error (.tooDeep t p l) →
      ∃ i : Nat, p = i ∧ i ≤ ts.length ∧ limit ≤ nesting (ts.take i)) ∧
    ((∀ t ∈ ts, t.kind ∉ levelStart) → 1 ≤ limit → ∀ t p l, readTokens g limit ts ≠ .error (.tooDeep t p l)) := by
  have hdeep : ∀ t p l, readTokens g limit ts = .error (.tooDeep t p l) →
      ∃ i : Nat, p = i ∧ i ≤ ts.length ∧ limit ≤ nesting (ts.take i) := by
    intro t p l h
    obtain ⟨us, rest, hb, hs, hp⟩ := outcome_of_tooDeep h
    have hus : us <+: ts := (List.prefix_append us rest).trans (hb ▸ Stream.body_prefix ts)
    have hn := hs.le_nesting rfl
    refine ⟨us.length, hp, hus.length_le, ?_⟩
    rw [← List.prefix_iff_eq_take.mp hus]
    omega
  refine ⟨hdeep, ?_⟩
  intro hflat hlimit t p l h
  obtain ⟨i, -, -, hi⟩ := hdeep t p l h
  have hle : nesting (ts.take i) ≤ 0 := nesting_nonpos fun t ht => hflat t (List.mem_of_mem_take ht)
  omega

theorem readTokens_nesting_groups : ∃ ts us : List Token,
    ts.map Token.kind = [.identifier, .leftParen, .identifier, .rightParen, .leftParen, .kwIf] ∧
    (∃ t, readTokens .expression 2 ts = .error (.tooDeep t 6 2)) ∧
    (∃ i : Nat, (6 : Int) = i ∧ i ≤ ts.length ∧ 2 ≤ nesting (ts.take i)) ∧
    us.map Token.kind = [.identifier, .rightParen] ∧
    (∀ t ∈ us, t.kind ∉ levelStart) ∧ ∀ t p l, readTokens .expression 1 us ≠ .error (.tooDeep t p l) := by
  have hdeep : ∃ t, readTokens .expression 2
      ([.identifier, .leftParen, .identifier, .rightParen, .leftParen, .kwIf].map sample) = .error (.tooDeep t 6 2) :=
    ⟨_, rfl⟩
  have hflat : ∀ t ∈ [.identifier, .rightParen].map sample, t.kind ∉ levelStart := by decide
  obtain ⟨t, ht⟩ := hdeep
  exact ⟨_, _, rfl, ⟨t, ht⟩, (readTokens_nesting .expression 2 _).1 _ _ _ ht, rfl, hflat,
    (readTokens_nesting .expression 1 _).2 hflat (by decide)⟩

end LambdaSyntax
