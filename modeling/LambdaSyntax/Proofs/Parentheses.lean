/-
  LambdaSyntax.Proofs.Parentheses — parentheses in what is read as a whole.

  `unclosed` counts left parentheses less right ones. Tokens are `Balanced` when this comes out even and
  no beginning of them has more right ones than left ones. A construct of the grammar is
  balanced (`Derives.balanced`), so what only begins one never has a right parenthesis too many
  (`Makes.unclosed_nonneg`), and a whole one leaves no left parenthesis open (`Balanced.not_leftOpen`).
  In turn, tokens that leave none open are the end of balanced ones, wherever no right one before them is
  too many (`exists_balanced_suffix`).
-/

import Mathlib.Data.List.Infix
import LambdaSyntax.Proofs.Grows

namespace LambdaSyntax

/-! ## Counting -/

/-- The left parentheses less the right ones. -/
def unclosed (ts : List Token) : Int := ts.countP (·.kind = .leftParen) - ts.countP (·.kind = .rightParen)

/-- What a token of this kind adds to the count. -/
def Kind.paren : Kind → Int
  | .leftParen => 1
  | .rightParen => -1
  | _ => 0

structure Balanced (ts : List Token) : Prop where
  closed : unclosed ts = 0
  never_below : ∀ us, us <+: ts → 0 ≤ unclosed us

/-- One of the tokens is a left parenthesis that no token behind it closes. -/
def LeftOpen (ts : List Token) : Prop :=
  ∃ before l rest, ts = before ++ l :: rest ∧ l.kind = .leftParen ∧ ∀ us, us <+: rest → 0 ≤ unclosed us

section

variable {t l r : Token} {ts us ws : List Token}

@[simp] theorem unclosed_nil : unclosed [] = 0 := rfl

@[simp] theorem unclosed_cons (t : Token) (ts : List Token) : unclosed (t :: ts) = t.kind.paren + unclosed ts := by
  simp only [unclosed, List.countP_cons]
  cases t.kind <;> simp [Kind.paren] <;> omega

@[simp] theorem unclosed_append (ts us : List Token) : unclosed (ts ++ us) = unclosed ts + unclosed us := by
  simp only [unclosed, List.countP_append]
  omega

theorem unclosed_neg_iff : unclosed ts < 0 ↔ ts.countP (·.kind = .leftParen) < ts.countP (·.kind = .rightParen) := by
  unfold unclosed
  omega

/-! ## Balanced tokens -/

theorem prefix_append_cases (h : us <+: ts ++ ws) : us <+: ts ∨ ∃ vs, us = ts ++ vs ∧ vs <+: ws := by
  rcases List.prefix_or_prefix_of_prefix h (List.prefix_append ts ws) with h' | ⟨vs, rfl⟩
  · exact .inl h'
  · exact .inr ⟨vs, rfl, (List.prefix_append_right_inj ts).mp h⟩

theorem Balanced.single (h : t.kind.paren = 0) : Balanced [t] := by
  refine ⟨by simp [h], fun us hus => ?_⟩
  rcases List.prefix_cons_iff.mp hus with rfl | ⟨vs, rfl, hvs⟩
  · exact Int.le_refl 0
  · obtain rfl := List.prefix_nil.mp hvs
    simp [h]

theorem Balanced.append (hts : Balanced ts) (hus : Balanced us) : Balanced (ts ++ us) := by
  refine ⟨by simp [hts.closed, hus.closed], fun vs hvs => ?_⟩
  rcases prefix_append_cases hvs with hvs | ⟨ws, rfl, hws⟩
  · exact hts.never_below vs hvs
  · rw [unclosed_append, hts.closed, Int.zero_add]
    exact hus.never_below ws hws

theorem Balanced.cons (h : t.kind.paren = 0) (hts : Balanced ts) : Balanced (t :: ts) := (Balanced.single h).append hts

theorem Balanced.group (hl : l.kind = .leftParen) (hts : Balanced ts) (hr : r.kind = .rightParen) :
    Balanced (l :: ts ++ [r]) := by
  refine ⟨by simp [hl, hr, hts.closed, Kind.paren], fun us hus => ?_⟩
  rcases List.prefix_concat_iff.mp hus with rfl | hus
  · simp [hl, hr, hts.closed, Kind.paren]
  rcases List.prefix_cons_iff.mp hus with rfl | ⟨vs, rfl, hvs⟩
  · exact Int.le_refl 0
  · have hinner := hts.never_below vs hvs
    simp only [unclosed_cons, hl, Kind.paren]
    omega

/-! ## What is left open -/

/-- More left parentheses than right ones from somewhere on leave one open. -/
theorem leftOpen_of_suffix (h : ∃ vs, vs <:+ ts ∧ 0 < unclosed vs) : LeftOpen ts := by
  induction ts with
  | nil =>
    obtain ⟨vs, hvs, hpos⟩ := h
    obtain rfl := List.suffix_nil.mp hvs
    exact absurd hpos (Int.lt_irrefl 0)
  | cons t ts ih =>
    by_cases hlater : ∃ vs, vs <:+ ts ∧ 0 < unclosed vs
    · obtain ⟨before, l, rest, rfl, hl, hrest⟩ := ih hlater
      exact ⟨t :: before, l, rest, rfl, hl, hrest⟩
    · -- then the first token is the one that is left open
      have hbehind : ∀ vs, vs <:+ ts → unclosed vs ≤ 0 := fun vs hvs =>
        Int.not_lt.mp fun hpos => hlater ⟨vs, hvs, hpos⟩
      obtain ⟨vs, hvs, hpos⟩ := h
      rcases List.suffix_cons_iff.mp hvs with rfl | hvs
      · have hts := hbehind ts List.suffix_rfl
        rw [unclosed_cons] at hpos
        have ht : t.kind = .leftParen ∧ unclosed ts = 0 := by
          revert hpos
          cases t.kind <;> simp [Kind.paren] <;> omega
        refine ⟨[], t, ts, rfl, ht.1, ?_⟩
        rintro us ⟨ws, rfl⟩
        have hws := hbehind ws (List.suffix_append us ws)
        have hsum := ht.2
        rw [unclosed_append] at hsum
        omega
      · exact absurd hpos (Int.not_lt.mpr (hbehind vs hvs))

theorem leftOpen_iff : LeftOpen ts ↔ ∃ vs, vs <:+ ts ∧ 0 < unclosed vs := by
  refine ⟨?_, leftOpen_of_suffix⟩
  rintro ⟨before, l, rest, rfl, hl, hrest⟩
  refine ⟨l :: rest, List.suffix_append before (l :: rest), ?_⟩
  have hbehind := hrest rest List.prefix_rfl
  rw [unclosed_cons, hl, Kind.paren]
  omega

theorem leftOpen_of_pos (h : 0 < unclosed ts) : LeftOpen ts := leftOpen_iff.mpr ⟨ts, List.suffix_rfl, h⟩

instance (ts : List Token) : Decidable (LeftOpen ts) :=
  decidable_of_iff (∃ vs ∈ ts.tails, 0 < unclosed vs) (by simp only [List.mem_tails, leftOpen_iff])

theorem not_leftOpen_iff : ¬LeftOpen ts ↔ ∀ vs, vs <:+ ts → unclosed vs ≤ 0 := by
  simp only [leftOpen_iff, not_exists, not_and, Int.not_lt]

theorem not_leftOpen_suffix (h : ¬LeftOpen ts) (hus : us <:+ ts) : ¬LeftOpen us := by
  rw [not_leftOpen_iff] at h ⊢
  exact fun vs hvs => h vs (hvs.trans hus)

theorem not_leftOpen_cons (ht : t.kind.paren ≤ 0) (h : ¬LeftOpen ts) : ¬LeftOpen (t :: ts) := by
  rw [not_leftOpen_iff] at h ⊢
  intro vs hvs
  rcases List.suffix_cons_iff.mp hvs with rfl | hvs
  · have hts := h ts List.suffix_rfl
    rw [unclosed_cons]
    omega
  · exact h vs hvs

/-- What is balanced leaves nothing open: the parentheses before cannot make up for one that is left open. -/
theorem Balanced.not_leftOpen (h : Balanced ts) : ¬LeftOpen ts := by
  rw [not_leftOpen_iff]
  rintro vs ⟨us, rfl⟩
  have hus := h.never_below us (List.prefix_append us vs)
  have hclosed := h.closed
  rw [unclosed_append] at hclosed
  omega

/-- What leaves nothing open is balanced, unless it has more right parentheses than left ones. -/
theorem balanced_of_not_leftOpen (h : ¬LeftOpen ts) (hts : 0 ≤ unclosed ts) : Balanced ts := by
  rw [not_leftOpen_iff] at h
  have hclosed : unclosed ts = 0 := Int.le_antisymm (h ts List.suffix_rfl) hts
  refine ⟨hclosed, ?_⟩
  rintro us ⟨ws, rfl⟩
  have hws := h ws (List.suffix_append us ws)
  rw [unclosed_append] at hclosed
  omega

theorem Kind.paren_le (k : Kind) : k.paren ≤ 1 := by cases k <;> decide

/-- At the end of `ts`, what leaves nothing open is the end of something balanced. -/
theorem exists_balanced_suffix (hts : LeftOpen ts ∨ 0 ≤ unclosed ts) (hus : us <:+ ts) (h : ¬LeftOpen us) :
    ∃ vs, vs <:+ ts ∧ us <:+ vs ∧ Balanced vs := by
  induction ts with
  | nil =>
    obtain rfl := List.suffix_nil.mp hus
    exact ⟨[], List.suffix_rfl, List.suffix_rfl, balanced_of_not_leftOpen h (Int.le_refl 0)⟩
  | cons t ts ih =>
    by_cases hopen : LeftOpen (t :: ts)
    · -- the first token is not part of it, and what is open is open behind it or is the token itself
      have hlater : us <:+ ts := (List.suffix_cons_iff.mp hus).resolve_left fun heq => h (heq ▸ hopen)
      have hrest : LeftOpen ts ∨ 0 ≤ unclosed ts := by
        refine or_iff_not_imp_left.mpr fun hclosed => ?_
        obtain ⟨vs, hvs, hpos⟩ := leftOpen_iff.mp hopen
        rcases List.suffix_cons_iff.mp hvs with rfl | hvs
        · have hle := t.kind.paren_le
          rw [unclosed_cons] at hpos
          omega
        · exact absurd hpos (Int.not_lt.mpr (not_leftOpen_iff.mp hclosed vs hvs))
      obtain ⟨vs, hvs, hend, hbalanced⟩ := ih hrest hlater
      exact ⟨vs, hvs.trans (List.suffix_cons t ts), hend, hbalanced⟩
    · exact ⟨_, List.suffix_rfl, hus, balanced_of_not_leftOpen hopen (hts.resolve_left hopen)⟩

end

/-! ## The grammar -/

namespace Grammar

variable {c : Tier} {n : Nat} {ts : List Token} {t : Tree Unit}

theorem paren_eq_zero {o : Token} {k : Kind} (h : o.kind = k) (hk : k.paren = 0) : o.kind.paren = 0 := h ▸ hk

theorem ComparisonOp.paren {k : Kind} {op : CompareOp} (h : ComparisonOp k op) : k.paren = 0 := by cases h <;> rfl

theorem SumOp.paren {k : Kind} {op : ArithOp} (h : SumOp k op) : k.paren = 0 := by cases h <;> rfl

theorem FactorOp.paren {k : Kind} {op : ArithOp} (h : FactorOp k op) : k.paren = 0 := by cases h <;> rfl

theorem Derives.balanced (h : Derives c n ts t) : Balanced ts := by
  induction h with
  | cond hi _ hth _ hel _ ihc ihy ihz =>
    have hyes := ihy.cons (paren_eq_zero hth rfl)
    have hno := ihz.cons (paren_eq_zero hel rfl)
    exact ((ihc.cons (paren_eq_zero hi rfl)).append hyes).append hno
  | func hf hx h₁ _ h₂ _ his _ ihp ihr ihb =>
    have hdomain := ((ihp.cons (paren_eq_zero h₁ rfl)).cons (paren_eq_zero hx rfl)).cons (paren_eq_zero hf rfl)
    have hcodomain := ihr.cons (paren_eq_zero h₂ rfl)
    have hbody := ihb.cons (paren_eq_zero his rfl)
    exact (hdomain.append hcodomain).append hbody
  | comparison _ ih | sum _ ih | factor _ ih | application _ ih | term _ ih | atomicType _ ih => exact ih
  | compare _ ho _ ihl ihr => exact ihl.append (ihr.cons ho.paren)
  | add _ ho _ ihl ihr => exact ihl.append (ihr.cons ho.paren)
  | mul _ ho _ ihl ihr => exact ihl.append (ihr.cons ho.paren)
  | apply _ _ ihf iha => exact ihf.append iha
  | integer hk | trueWord hk | falseWord hk | var hk | int hk | bool hk => exact .single (paren_eq_zero hk rfl)
  | group hl _ hr ih | typeGroup hl _ hr ih => exact ih.group hl hr
  | arrow _ ho _ ihp ihr => exact ihp.append (ihr.cons (paren_eq_zero ho rfl))

end Grammar

namespace Parse

variable {c : Tier} {n : Nat} {ts us : List Token} {u : Marked} {f : KindSet}

theorem Reads.balanced (h : Reads c n ts u f) : Balanced ts := h.derives.balanced

/-- Where something can still be read as a whole, no right parenthesis is one too many. -/
theorem Makes.unclosed_nonneg (h : Makes c n (ts ++ us)) : 0 ≤ unclosed ts := by
  obtain ⟨t, ht⟩ := h
  exact ht.balanced.never_below ts (List.prefix_append ts us)

end Parse

end LambdaSyntax
