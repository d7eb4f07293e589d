/-
  LambdaSyntax.Proofs.Reads — what a production reads when nothing is wrong.

  `Reads c n ts u f` says that a production of tier `c` with `n` levels left reads exactly the
  tokens `ts` as the marked tree `u`, provided that none of the kinds `f` follows: those would
  have been read as more of the same construct. It knows nothing of states and indices, and
  nothing of what is behind the tokens but its kind.

  Without marks and without `f` it is the grammar: `Reads.derives` and `reads_of_derives`.
-/

import LambdaSyntax.Grammar
import LambdaSyntax.Parse.Descent

namespace LambdaSyntax.Parse

open Grammar

/-- The kinds that extend a finished factor. -/
def factorFollow : KindSet := termStart ∪ .ofList [.times, .divide]

inductive Reads : Tier → Nat → List Token → Marked → KindSet → Prop
  | cond {n : Nat} {i th el : Token} {cs ys zs : List Token} {c y z : Marked} {f g h : KindSet} :
      i.kind = .kwIf → Reads .expression n cs c f →
      th.kind = .kwThen → Reads .expression n ys y g →
      el.kind = .kwElse → Reads .expression n zs z h →
      Reads .expression (n + 1) (i :: cs ++ th :: ys ++ el :: zs) (.cond c y z ⟨i.loc, z.mark.stop⟩) h
  | func {n : Nat} {fn x c₁ c₂ is : Token} {ps rs bs : List Token} {p r b : Marked} {f g h : KindSet} :
      fn.kind = .kwFun → x.kind = .identifier →
      c₁.kind = .colon → Reads .type n ps p f →
      c₂.kind = .colon → Reads .type n rs r g →
      is.kind = .kwIs → Reads .expression n bs b h →
      Reads .expression (n + 1) (fn :: x :: c₁ :: ps ++ c₂ :: rs ++ is :: bs)
        (.func x.lexeme p r b ⟨fn.loc, b.mark.stop⟩) h
  | comparison {n : Nat} {ts : List Token} {u : Marked} {f : KindSet} :
      Reads .comparison n ts u f → Reads .expression (n + 1) ts u f
  | compare {n : Nat} {o : Token} {op : CompareOp} {ls rs : List Token} {l r : Marked} :
      Reads .sum n ls l operandFollow → compareOp? o.kind = some op → Reads .sum n rs r operandFollow →
      Reads .comparison n (ls ++ o :: rs) (.compare op l r (l.mark.cover r.mark)) operandFollow
  | sum {n : Nat} {ts : List Token} {u : Marked} :
      Reads .sum n ts u operandFollow → Reads .comparison n ts u (operandFollow ∪ Hint.comparisons)
  | add {n : Nat} {o : Token} {op : ArithOp} {ls rs : List Token} {l r : Marked} :
      Reads .sum n ls l operandFollow → sumOp? o.kind = some op → Reads .factor n rs r factorFollow →
      Reads .sum n (ls ++ o :: rs) (.arith op l r (l.mark.cover r.mark)) operandFollow
  | factor {n : Nat} {ts : List Token} {u : Marked} :
      Reads .factor n ts u factorFollow → Reads .sum n ts u operandFollow
  | mul {n : Nat} {o : Token} {op : ArithOp} {ls rs : List Token} {l r : Marked} :
      Reads .factor n ls l factorFollow → factorOp? o.kind = some op → Reads .application n rs r termStart →
      Reads .factor n (ls ++ o :: rs) (.arith op l r (l.mark.cover r.mark)) factorFollow
  | application {n : Nat} {ts : List Token} {u : Marked} :
      Reads .application n ts u termStart → Reads .factor n ts u factorFollow
  | apply {n : Nat} {fs as : List Token} {f a : Marked} :
      Reads .application n fs f termStart → Reads .term n as a ∅ →
      Reads .application n (fs ++ as) (.apply f a (f.mark.cover a.mark)) termStart
  | term {n : Nat} {ts : List Token} {u : Marked} :
      Reads .term n ts u ∅ → Reads .application n ts u termStart
  | integer {n : Nat} {t : Token} {v : Nat} :
      t.kind = .integer → Literal.IsNumber t.lexeme.toList v →
      Reads .term n [t] (.literal (.number v) "integer" (.point t.loc)) ∅
  | trueWord {n : Nat} {t : Token} :
      t.kind = .kwTrue → Reads .term n [t] (.literal (.truth true) "boolean" (.point t.loc)) ∅
  | falseWord {n : Nat} {t : Token} :
      t.kind = .kwFalse → Reads .term n [t] (.literal (.truth false) "boolean" (.point t.loc)) ∅
  | var {n : Nat} {t : Token} :
      t.kind = .identifier → Reads .term n [t] (.var t.lexeme (.point t.loc)) ∅
  | group {n : Nat} {l r : Token} {ts : List Token} {u : Marked} {f : KindSet} :
      l.kind = .leftParen → Reads .expression n ts u f → r.kind = .rightParen →
      Reads .term n (l :: ts ++ [r]) u ∅
  | arrow {n : Nat} {o : Token} {ps rs : List Token} {p r : Marked} :
      Reads .atomicType n ps p ∅ → o.kind = .arrow → Reads .type n rs r (.single .arrow) →
      Reads .type (n + 1) (ps ++ o :: rs) (.arrow p r (p.mark.cover r.mark)) (.single .arrow)
  | atomicType {n : Nat} {ts : List Token} {u : Marked} :
      Reads .atomicType n ts u ∅ → Reads .type (n + 1) ts u (.single .arrow)
  | int {n : Nat} {t : Token} :
      t.kind = .kwInt → Reads .atomicType n [t] (.int (.point t.loc)) ∅
  | bool {n : Nat} {t : Token} :
      t.kind = .kwBool → Reads .atomicType n [t] (.bool (.point t.loc)) ∅
  | typeGroup {n : Nat} {l r : Token} {ts : List Token} {u : Marked} {f : KindSet} :
      l.kind = .leftParen → Reads .type n ts u f → r.kind = .rightParen →
      Reads .atomicType n (l :: ts ++ [r]) u ∅

/-! ## The operators -/

theorem sumOp?_eq_some {k : Kind} {op : ArithOp} : sumOp? k = some op ↔ SumOp k op := by
  constructor
  · intro h
    cases k <;> cases h
    · exact .plus
    · exact .minus
  · intro h
    cases h <;> rfl

theorem factorOp?_eq_some {k : Kind} {op : ArithOp} : factorOp? k = some op ↔ FactorOp k op := by
  constructor
  · intro h
    cases k <;> cases h
    · exact .times
    · exact .divide
  · intro h
    cases h <;> rfl

theorem compareOp?_eq_some {k : Kind} {op : CompareOp} : compareOp? k = some op ↔ ComparisonOp k op := by
  constructor
  · intro h
    cases k <;> cases h
    · exact .less
    · exact .equal
    · exact .greater
  · intro h
    cases h <;> rfl

theorem compareOp?_eq_none {k : Kind} : compareOp? k = none ↔ k ∉ Hint.comparisons := by cases k <;> decide

theorem mem_expressionStart {k : Kind} : k ∈ expressionStart ↔ k ∈ termStart ∨ k = .kwIf ∨ k = .kwFun := by
  simp [expressionStart]

/-! ## The grammar -/

theorem Reads.derives {c : Tier} {n : Nat} {ts : List Token} {u : Marked} {f : KindSet} (h : Reads c n ts u f) :
    Derives c n ts u.bare := by
  induction h with
  | cond hi _ ht _ he _ ihc ihy ihz => exact .cond hi ihc ht ihy he ihz
  | func hf hx h₁ _ h₂ _ hi _ ihp ihr ihb => exact .func hf hx h₁ ihp h₂ ihr hi ihb
  | comparison _ ih => exact .comparison ih
  | compare _ ho _ ihl ihr => exact .compare ihl (compareOp?_eq_some.mp ho) ihr
  | sum _ ih => exact .sum ih
  | add _ ho _ ihl ihr => exact .add ihl (sumOp?_eq_some.mp ho) ihr
  | factor _ ih => exact .factor ih
  | mul _ ho _ ihl ihr => exact .mul ihl (factorOp?_eq_some.mp ho) ihr
  | application _ ih => exact .application ih
  | apply _ _ ihf iha => exact .apply ihf iha
  | term _ ih => exact .term ih
  | integer hk hv => exact .integer hk hv
  | trueWord hk => exact .trueWord hk
  | falseWord hk => exact .falseWord hk
  | var hk => exact .var hk
  | group hl _ hr ih => exact .group hl ih hr
  | arrow _ ho _ ihp ihr => exact .arrow ihp ho ihr
  | atomicType _ ih => exact .atomicType ih
  | int hk => exact .int hk
  | bool hk => exact .bool hk
  | typeGroup hl _ hr ih => exact .typeGroup hl ih hr

/-- The kinds that extend a construct of a tier, where they do not depend on how it was read. -/
def tierFollow? : Tier → Option KindSet
  | .expression | .comparison => none
  | .sum => some operandFollow
  | .factor => some factorFollow
  | .application => some termStart
  | .term | .atomicType => some ∅
  | .type => some (.single .arrow)

/-- Does a construct of this tier leave behind what would have extended it? -/
def remembers : Tier → Bool
  | .expression | .comparison | .type => true
  | _ => false

theorem Reads.follow_eq {c : Tier} {n : Nat} {ts : List Token} {u : Marked} {f g : KindSet} (h : Reads c n ts u f)
    (hg : tierFollow? c = some g) : f = g := by
  cases h <;> cases hg <;> rfl

theorem reads_of_derives {c : Tier} {n : Nat} {ts : List Token} {t : Tree Unit} (h : Derives c n ts t) :
    ∃ u f, Reads c n ts u f ∧ u.bare = t := by
  -- below a comparison the kinds to follow are those of the tier, not any there may be
  have fixed : ∀ {c n ts} {t : Tree Unit} {g : KindSet}, tierFollow? c = some g →
      (∃ u f, Reads c n ts u f ∧ u.bare = t) → ∃ u, Reads c n ts u g ∧ u.bare = t := by
    intro c n ts t g hg ⟨u, f, hu, ht⟩
    exact ⟨u, hu.follow_eq hg ▸ hu, ht⟩
  induction h with
  | cond hi _ ht _ he _ ihc ihy ihz =>
    obtain ⟨c, f, hc, rfl⟩ := ihc
    obtain ⟨y, g, hy, rfl⟩ := ihy
    obtain ⟨z, h, hz, rfl⟩ := ihz
    exact ⟨_, _, .cond hi hc ht hy he hz, rfl⟩
  | func hf hx h₁ _ h₂ _ hi _ ihp ihr ihb =>
    obtain ⟨p, f, hp, rfl⟩ := ihp
    obtain ⟨r, g, hr, rfl⟩ := ihr
    obtain ⟨b, h, hb, rfl⟩ := ihb
    exact ⟨_, _, .func hf hx h₁ hp h₂ hr hi hb, rfl⟩
  | comparison _ ih =>
    obtain ⟨u, f, hu, rfl⟩ := ih
    exact ⟨_, _, .comparison hu, rfl⟩
  | compare _ ho _ ihl ihr =>
    obtain ⟨l, hl, rfl⟩ := fixed rfl ihl
    obtain ⟨r, hr, rfl⟩ := fixed rfl ihr
    exact ⟨_, _, .compare hl (compareOp?_eq_some.mpr ho) hr, rfl⟩
  | sum _ ih =>
    obtain ⟨u, hu, rfl⟩ := fixed rfl ih
    exact ⟨_, _, .sum hu, rfl⟩
  | add _ ho _ ihl ihr =>
    obtain ⟨l, hl, rfl⟩ := fixed rfl ihl
    obtain ⟨r, hr, rfl⟩ := fixed rfl ihr
    exact ⟨_, _, .add hl (sumOp?_eq_some.mpr ho) hr, rfl⟩
  | factor _ ih =>
    obtain ⟨u, hu, rfl⟩ := fixed rfl ih
    exact ⟨_, _, .factor hu, rfl⟩
  | mul _ ho _ ihl ihr =>
    obtain ⟨l, hl, rfl⟩ := fixed rfl ihl
    obtain ⟨r, hr, rfl⟩ := fixed rfl ihr
    exact ⟨_, _, .mul hl (factorOp?_eq_some.mpr ho) hr, rfl⟩
  | application _ ih =>
    obtain ⟨u, hu, rfl⟩ := fixed rfl ih
    exact ⟨_, _, .application hu, rfl⟩
  | apply _ _ ihf iha =>
    obtain ⟨f, hf, rfl⟩ := fixed rfl ihf
    obtain ⟨a, ha, rfl⟩ := fixed rfl iha
    exact ⟨_, _, .apply hf ha, rfl⟩
  | term _ ih =>
    obtain ⟨u, hu, rfl⟩ := fixed rfl ih
    exact ⟨_, _, .term hu, rfl⟩
  | integer hk hv => exact ⟨_, _, .integer hk hv, rfl⟩
  | trueWord hk => exact ⟨_, _, .trueWord hk, rfl⟩
  | falseWord hk => exact ⟨_, _, .falseWord hk, rfl⟩
  | var hk => exact ⟨_, _, .var hk, rfl⟩
  | group hl _ hr ih =>
    obtain ⟨u, f, hu, rfl⟩ := ih
    exact ⟨_, _, .group hl hu hr, rfl⟩
  | arrow _ ho _ ihp ihr =>
    obtain ⟨p, hp, rfl⟩ := fixed rfl ihp
    obtain ⟨r, hr, rfl⟩ := fixed rfl ihr
    exact ⟨_, _, .arrow hp ho hr, rfl⟩
  | atomicType _ ih =>
    obtain ⟨u, hu, rfl⟩ := fixed rfl ih
    exact ⟨_, _, .atomicType hu, rfl⟩
  | int hk => exact ⟨_, _, .int hk, rfl⟩
  | bool hk => exact ⟨_, _, .bool hk, rfl⟩
  | typeGroup hl _ hr ih =>
    obtain ⟨u, f, hu, rfl⟩ := ih
    exact ⟨_, _, .typeGroup hl hu hr, rfl⟩

/-! ## More levels -/

/-- What is read with some levels left is read alike with more. -/
theorem Reads.raise {c : Tier} {n m : Nat} {ts : List Token} {u : Marked} {f : KindSet} (h : Reads c n ts u f)
    (hm : n ≤ m) : Reads c m ts u f := by
  induction h generalizing m with
  | cond hi _ hth _ hel _ ihc ihy ihz =>
    obtain ⟨m, rfl⟩ := Nat.exists_eq_add_of_lt hm
    exact .cond hi (ihc (by omega)) hth (ihy (by omega)) hel (ihz (by omega))
  | func hf hx h₁ _ h₂ _ hi _ ihp ihr ihb =>
    obtain ⟨m, rfl⟩ := Nat.exists_eq_add_of_lt hm
    exact .func hf hx h₁ (ihp (by omega)) h₂ (ihr (by omega)) hi (ihb (by omega))
  | comparison _ ih =>
    obtain ⟨m, rfl⟩ := Nat.exists_eq_add_of_lt hm
    exact .comparison (ih (by omega))
  | compare _ ho _ ihl ihr => exact .compare (ihl hm) ho (ihr hm)
  | sum _ ih => exact .sum (ih hm)
  | add _ ho _ ihl ihr => exact .add (ihl hm) ho (ihr hm)
  | factor _ ih => exact .factor (ih hm)
  | mul _ ho _ ihl ihr => exact .mul (ihl hm) ho (ihr hm)
  | application _ ih => exact .application (ih hm)
  | apply _ _ ihf iha => exact .apply (ihf hm) (iha hm)
  | term _ ih => exact .term (ih hm)
  | integer hk hv => exact .integer hk hv
  | trueWord hk => exact .trueWord hk
  | falseWord hk => exact .falseWord hk
  | var hk => exact .var hk
  | group hl _ hr ih => exact .group hl (ih hm) hr
  | arrow _ ho _ ihp ihr =>
    obtain ⟨m, rfl⟩ := Nat.exists_eq_add_of_lt hm
    exact .arrow (ihp (by omega)) ho (ihr (by omega))
  | atomicType _ ih =>
    obtain ⟨m, rfl⟩ := Nat.exists_eq_add_of_lt hm
    exact .atomicType (ih (by omega))
  | int hk => exact .int hk
  | bool hk => exact .bool hk
  | typeGroup hl _ hr ih => exact .typeGroup hl (ih hm) hr

theorem raise_derives {c : Tier} {n m : Nat} {ts : List Token} {t : Tree Unit} (h : Derives c n ts t)
    (hm : n ≤ m) : Derives c m ts t := by
  obtain ⟨u, f, hu, rfl⟩ := reads_of_derives h
  exact (hu.raise hm).derives

end LambdaSyntax.Parse
