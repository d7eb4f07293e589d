/-
  LambdaSyntax.Proofs.Stops — where a production stops when something is wrong.

  `Opens c n ts d m`: a construct of tier `c` with `n` levels left has begun with `ts`, all of
  it complete, and now contains a construct of tier `d` with `m` levels. `Takes` is the same
  where that construct is only begun when its first token starts a term.
  `Halts c n ts r`: behind `ts` the production looks at a token itself and may stop, for the
  reason `r`. `Stops` follows the open constructs down to the one that halts.

  As with `Reads`, the tokens are those that were passed; what the next token has to be for
  the reason to apply, and the error it then makes, is said by `Raises`.
-/

import LambdaSyntax.Proofs.Literal
import LambdaSyntax.Proofs.Reads

namespace LambdaSyntax.Parse

inductive Reason where
  | refused (expected : KindSet)
  | badNumber
  | tooDeep
  deriving DecidableEq, Repr

inductive Opens : Tier → Nat → List Token → Tier → Nat → Prop
  | condition {n : Nat} {i : Token} : i.kind = .kwIf → Opens .expression (n + 1) [i] .expression n
  | yes {n : Nat} {i th : Token} {cs : List Token} {c : Marked} {f : KindSet} :
      i.kind = .kwIf → Reads .expression n cs c f → th.kind = .kwThen →
      Opens .expression (n + 1) (i :: cs ++ [th]) .expression n
  | no {n : Nat} {i th el : Token} {cs ys : List Token} {c y : Marked} {f g : KindSet} :
      i.kind = .kwIf → Reads .expression n cs c f → th.kind = .kwThen → Reads .expression n ys y g →
      el.kind = .kwElse → Opens .expression (n + 1) (i :: cs ++ th :: ys ++ [el]) .expression n
  | domain {n : Nat} {fn x c₁ : Token} : fn.kind = .kwFun → x.kind = .identifier → c₁.kind = .colon →
      Opens .expression (n + 1) [fn, x, c₁] .type n
  | codomain {n : Nat} {fn x c₁ c₂ : Token} {ps : List Token} {p : Marked} {f : KindSet} :
      fn.kind = .kwFun → x.kind = .identifier → c₁.kind = .colon → Reads .type n ps p f → c₂.kind = .colon →
      Opens .expression (n + 1) (fn :: x :: c₁ :: ps ++ [c₂]) .type n
  | body {n : Nat} {fn x c₁ c₂ is : Token} {ps rs : List Token} {p r : Marked} {f g : KindSet} :
      fn.kind = .kwFun → x.kind = .identifier → c₁.kind = .colon → Reads .type n ps p f → c₂.kind = .colon →
      Reads .type n rs r g → is.kind = .kwIs →
      Opens .expression (n + 1) (fn :: x :: c₁ :: ps ++ c₂ :: rs ++ [is]) .expression n
  | left {n : Nat} : Opens .comparison n [] .sum n
  | right {n : Nat} {o : Token} {op : CompareOp} {ls : List Token} {l : Marked} :
      Reads .sum n ls l operandFollow → compareOp? o.kind = some op → Opens .comparison n (ls ++ [o]) .sum n
  | summand {n : Nat} : Opens .sum n [] .factor n
  | nextSummand {n : Nat} {o : Token} {op : ArithOp} {ls : List Token} {l : Marked} :
      Reads .sum n ls l operandFollow → sumOp? o.kind = some op → Opens .sum n (ls ++ [o]) .factor n
  | multiplicand {n : Nat} : Opens .factor n [] .application n
  | nextMultiplicand {n : Nat} {o : Token} {op : ArithOp} {ls : List Token} {l : Marked} :
      Reads .factor n ls l factorFollow → factorOp? o.kind = some op → Opens .factor n (ls ++ [o]) .application n
  | function {n : Nat} : Opens .application n [] .term n
  | group {n : Nat} {l : Token} : l.kind = .leftParen → Opens .term n [l] .expression n
  | atomicType {n : Nat} : Opens .type (n + 1) [] .atomicType n
  | result {n : Nat} {o : Token} {ps : List Token} {p : Marked} :
      Reads .atomicType n ps p ∅ → o.kind = .arrow → Opens .type (n + 1) (ps ++ [o]) .type n
  | typeGroup {n : Nat} {l : Token} : l.kind = .leftParen → Opens .atomicType n [l] .type n

inductive Takes : Tier → Nat → List Token → Tier → Nat → Prop
  | comparison {n : Nat} : Takes .expression (n + 1) [] .comparison n
  | argument {n : Nat} {fs : List Token} {f : Marked} :
      Reads .application n fs f termStart → Takes .application n fs .term n

inductive Halts : Tier → Nat → List Token → Reason → Prop
  | expressionLevel : Halts .expression 0 [] .tooDeep
  | typeLevel : Halts .type 0 [] .tooDeep
  | expression {n : Nat} : Halts .expression (n + 1) [] (.refused expressionStart)
  | kwThen {n : Nat} {i : Token} {cs : List Token} {c : Marked} {f : KindSet} :
      i.kind = .kwIf → Reads .expression n cs c f →
      Halts .expression (n + 1) (i :: cs) (.refused (f ∪ .single .kwThen))
  | kwElse {n : Nat} {i th : Token} {cs ys : List Token} {c y : Marked} {f g : KindSet} :
      i.kind = .kwIf → Reads .expression n cs c f → th.kind = .kwThen → Reads .expression n ys y g →
      Halts .expression (n + 1) (i :: cs ++ th :: ys) (.refused (g ∪ .single .kwElse))
  | param {n : Nat} {fn : Token} : fn.kind = .kwFun →
      Halts .expression (n + 1) [fn] (.refused (.single .identifier))
  | colon {n : Nat} {fn x : Token} : fn.kind = .kwFun → x.kind = .identifier →
      Halts .expression (n + 1) [fn, x] (.refused (.single .colon))
  | nextColon {n : Nat} {fn x c₁ : Token} {ps : List Token} {p : Marked} {f : KindSet} :
      fn.kind = .kwFun → x.kind = .identifier → c₁.kind = .colon → Reads .type n ps p f →
      Halts .expression (n + 1) (fn :: x :: c₁ :: ps) (.refused (f ∪ .single .colon))
  | kwIs {n : Nat} {fn x c₁ c₂ : Token} {ps rs : List Token} {p r : Marked} {f g : KindSet} :
      fn.kind = .kwFun → x.kind = .identifier → c₁.kind = .colon → Reads .type n ps p f → c₂.kind = .colon →
      Reads .type n rs r g →
      Halts .expression (n + 1) (fn :: x :: c₁ :: ps ++ c₂ :: rs) (.refused (g ∪ .single .kwIs))
  | term {n : Nat} : Halts .term n [] (.refused termStart)
  | number {n : Nat} : Halts .term n [] .badNumber
  | rightParen {n : Nat} {l : Token} {ts : List Token} {u : Marked} {f : KindSet} :
      l.kind = .leftParen → Reads .expression n ts u f →
      Halts .term n (l :: ts) (.refused (f ∪ .single .rightParen))
  | atomicType {n : Nat} : Halts .atomicType n [] (.refused typeStart)
  | typeRightParen {n : Nat} {l : Token} {ts : List Token} {u : Marked} {f : KindSet} :
      l.kind = .leftParen → Reads .type n ts u f →
      Halts .atomicType n (l :: ts) (.refused (f ∪ .single .rightParen))

/-- The construct that stopped behind `ts` was begun because of a token that starts a term. -/
def Begun : List Token → Reason → Prop
  | [], r => r = .badNumber
  | t :: _, _ => t.kind ∈ termStart

inductive Stops : Tier → Nat → List Token → Reason → Prop
  | halt {c : Tier} {n : Nat} {ts : List Token} {r : Reason} : Halts c n ts r → Stops c n ts r
  | inside {c d : Tier} {n m : Nat} {ts us : List Token} {r : Reason} :
      Opens c n ts d m → Stops d m us r → Stops c n (ts ++ us) r
  | taken {c d : Tier} {n m : Nat} {ts us : List Token} {r : Reason} :
      Takes c n ts d m → Stops d m us r → Begun us r → Stops c n (ts ++ us) r

/-- The error that a reason makes of the token `t` with the index `i`. -/
inductive Raises (S : Setting) (t : Token) (i : Nat) : Reason → SyntaxError → Prop
  | unexpected {expected : KindSet} : t.kind ∉ expected → t.kind ≠ .finish →
      Raises S t i (.refused expected) (.unexpected expected t i)
  | unexpectedEnd {expected : KindSet} : t.kind ∉ expected → t.kind = .finish →
      Raises S t i (.refused expected) (.unexpectedEnd expected t i)
  | badNumber {e : SyntaxError} : t.kind = .integer → Literal.integer t i = .error e →
      Raises S t i .badNumber e
  | tooDeep : Raises S t i .tooDeep (.tooDeep t i S.limit)

theorem raises_refusal {S : Setting} {s : State} {expected : KindSet} (h : (s.current S).kind ∉ expected) :
    Raises S (s.current S) s.index (.refused expected) (s.refusal S expected) := by
  unfold State.refusal
  by_cases hk : (s.current S).kind = .finish
  · rw [if_pos hk]
    exact .unexpectedEnd h hk
  · rw [if_neg hk]
    exact .unexpected h hk

theorem Raises.position {S : Setting} {t : Token} {i : Nat} {r : Reason} {e : SyntaxError} (h : Raises S t i r e) :
    e.position = i := by
  cases h with
  | badNumber _ hi => rcases Literal.integer_error hi with rfl | ⟨reason, rfl⟩ <;> rfl
  | _ => rfl

theorem Raises.of_tooDeep {S : Setting} {t t' : Token} {i : Nat} {r : Reason} {p l : Int}
    (h : Raises S t i r (.tooDeep t' p l)) : r = .tooDeep ∧ p = i := by
  cases h with
  | badNumber _ hi => rcases Literal.integer_error hi with h | ⟨reason, h⟩ <;> cases h
  | tooDeep => exact ⟨rfl, rfl⟩

/-- Neither the limit nor the place decides whether a reason applies. -/
theorem Raises.elsewhere {S : Setting} {t : Token} {i : Nat} {r : Reason} {e : SyntaxError} (h : Raises S t i r e)
    (S' : Setting) (j : Nat) : ∃ e', Raises S' t j r e' := by
  cases h with
  | unexpected hk hf => exact ⟨_, .unexpected hk hf⟩
  | unexpectedEnd hk hf => exact ⟨_, .unexpectedEnd hk hf⟩
  | badNumber hk hi =>
    have hn : ¬ ∃ v, Literal.IsNumber t.lexeme.toList v := by
      intro h
      obtain ⟨v, hv⟩ := h
      rw [Literal.integer_eq_ok_iff.mpr hv] at hi
      cases hi
    obtain ⟨e', he'⟩ := Literal.integer_error_of_not_number hn j
    exact ⟨e', .badNumber hk he'⟩
  | tooDeep => exact ⟨_, .tooDeep⟩

theorem Raises.setting {S : Setting} {t : Token} {i : Nat} {r : Reason} {e : SyntaxError} (h : Raises S t i r e)
    (hr : r ≠ .tooDeep) (S' : Setting) : Raises S' t i r e := by
  cases h with
  | unexpected hk hf => exact .unexpected hk hf
  | unexpectedEnd hk hf => exact .unexpectedEnd hk hf
  | badNumber hk hi => exact .badNumber hk hi
  | tooDeep => exact absurd rfl hr

/-! ## Operators that group from the left -/

/-- A tier `c` of operands of tier `d`; the kinds `f` extend the whole, `g` the last operand. -/
structure Joins (c d : Tier) (op? : Kind → Option ArithOp) (f g : KindSet) : Prop where
  first {n : Nat} {ts : List Token} {u : Marked} : Reads d n ts u g → Reads c n ts u f
  next {n : Nat} {o : Token} {op : ArithOp} {ls rs : List Token} {l r : Marked} :
    Reads c n ls l f → op? o.kind = some op → Reads d n rs r g →
    Reads c n (ls ++ o :: rs) (.arith op l r (l.mark.cover r.mark)) f
  opens {n : Nat} : Opens c n [] d n
  reopens {n : Nat} {o : Token} {op : ArithOp} {ls : List Token} {l : Marked} :
    Reads c n ls l f → op? o.kind = some op → Opens c n (ls ++ [o]) d n
  operand : tierFollow? d = some g
  forgets : remembers c = false
  ends {k : Kind} : k ∉ f ↔ k ∉ g ∧ op? k = none
  separates {k : Kind} {op : ArithOp} : op? k = some op → k ∉ g ∧ k ≠ .finish

/-- A kind that extends the whole extends the last operand or is an operator. -/
theorem Joins.mem {c d : Tier} {op? : Kind → Option ArithOp} {f g : KindSet} {k : Kind} (J : Joins c d op? f g) :
    k ∈ f ↔ k ∈ g ∨ ∃ op, op? k = some op := by
  have h := J.ends (k := k)
  rw [← Option.ne_none_iff_exists', ← Decidable.not_iff_not, h, not_or, Decidable.not_not]

theorem joins_sum : Joins .sum .factor sumOp? operandFollow factorFollow where
  first := .factor
  next := .add
  opens := .summand
  reopens := .nextSummand
  operand := rfl
  forgets := rfl
  ends {k} := by cases k <;> decide
  separates {k op} h := by cases k <;> cases h <;> decide

theorem joins_factor : Joins .factor .application factorOp? factorFollow termStart where
  first := .application
  next := .mul
  opens := .multiplicand
  reopens := .nextMultiplicand
  operand := rfl
  forgets := rfl
  ends {k} := by cases k <;> decide
  separates {k op} h := by cases k <;> cases h <;> decide

/-! ## The tokens that were passed -/

theorem Reads.ne_nil {c : Tier} {n : Nat} {ts : List Token} {u : Marked} {f : KindSet} (h : Reads c n ts u f) :
    ts ≠ [] := by
  induction h with
  | comparison _ ih | sum _ ih | factor _ ih | application _ ih | term _ ih | atomicType _ ih => exact ih
  | _ => simp [*]

/-- What a production asks of every token that it passes. -/
def Passable (t : Token) : Prop :=
  t.kind ≠ .finish ∧ (t.kind = .integer → ∃ v, Literal.IsNumber t.lexeme.toList v)

def alwaysPassable : Kind → Bool
  | .finish | .integer => false
  | _ => true

theorem passable_of_kind {t : Token} {k : Kind} (h : t.kind = k) (hk : alwaysPassable k = true) : Passable t := by
  subst h
  constructor
  · intro hf
    rw [hf] at hk
    cases hk
  · intro hi
    rw [hi] at hk
    cases hk

theorem passable_operator {t : Token} {α : Type} {op? : Kind → Option α} {op : α} (h : op? t.kind = some op)
    (hf : op? .finish = none) (hi : op? .integer = none) : Passable t := by
  constructor
  · intro hk
    rw [hk, hf] at h
    cases h
  · intro hk
    rw [hk, hi] at h
    cases h

theorem Reads.passable {c : Tier} {n : Nat} {ts : List Token} {u : Marked} {f : KindSet} (h : Reads c n ts u f) :
    ∀ t ∈ ts, Passable t := by
  induction h with
  | cond hi _ hth _ hel _ ihc ihy ihz =>
    simp only [List.forall_mem_append, List.forall_mem_cons]
    exact ⟨⟨⟨passable_of_kind hi rfl, ihc⟩, passable_of_kind hth rfl, ihy⟩, passable_of_kind hel rfl, ihz⟩
  | func hf hx h₁ _ h₂ _ his _ ihp ihr ihb =>
    simp only [List.forall_mem_append, List.forall_mem_cons]
    exact ⟨⟨⟨passable_of_kind hf rfl, passable_of_kind hx rfl, passable_of_kind h₁ rfl, ihp⟩,
      passable_of_kind h₂ rfl, ihr⟩, passable_of_kind his rfl, ihb⟩
  | compare _ ho _ ihl ihr | add _ ho _ ihl ihr | mul _ ho _ ihl ihr =>
    simp only [List.forall_mem_append, List.forall_mem_cons]
    exact ⟨ihl, passable_operator ho rfl rfl, ihr⟩
  | comparison _ ih | sum _ ih | factor _ ih | application _ ih | term _ ih | atomicType _ ih => exact ih
  | apply _ _ ihf iha =>
    simp only [List.forall_mem_append]
    exact ⟨ihf, iha⟩
  | integer hk hv => simpa using ⟨by simp [hk], fun _ => ⟨_, hv⟩⟩
  | trueWord hk | falseWord hk | var hk | int hk | bool hk =>
    simpa using passable_of_kind hk rfl
  | group hl _ hr ih | typeGroup hl _ hr ih =>
    simp only [List.forall_mem_append, List.forall_mem_cons]
    exact ⟨⟨passable_of_kind hl rfl, ih⟩, passable_of_kind hr rfl, by simp⟩
  | arrow _ ho _ ihp ihr =>
    simp only [List.forall_mem_append, List.forall_mem_cons]
    exact ⟨ihp, passable_of_kind ho rfl, ihr⟩

theorem Opens.passable {c d : Tier} {n m : Nat} {ts : List Token} (h : Opens c n ts d m) : ∀ t ∈ ts, Passable t := by
  cases h with
  | left | summand | multiplicand | function | atomicType => simp
  | condition hk | group hk | typeGroup hk => simpa using passable_of_kind hk rfl
  | yes hi hc hth =>
    simp only [List.forall_mem_append, List.forall_mem_cons]
    exact ⟨⟨passable_of_kind hi rfl, hc.passable⟩, passable_of_kind hth rfl, by simp⟩
  | no hi hc hth hy hel =>
    simp only [List.forall_mem_append, List.forall_mem_cons]
    exact ⟨⟨⟨passable_of_kind hi rfl, hc.passable⟩, passable_of_kind hth rfl, hy.passable⟩,
      passable_of_kind hel rfl, by simp⟩
  | domain hf hx h₁ =>
    simp only [List.forall_mem_cons]
    exact ⟨passable_of_kind hf rfl, passable_of_kind hx rfl, passable_of_kind h₁ rfl, by simp⟩
  | codomain hf hx h₁ hp h₂ =>
    simp only [List.forall_mem_append, List.forall_mem_cons]
    exact ⟨⟨passable_of_kind hf rfl, passable_of_kind hx rfl, passable_of_kind h₁ rfl, hp.passable⟩,
      passable_of_kind h₂ rfl, by simp⟩
  | body hf hx h₁ hp h₂ hr his =>
    simp only [List.forall_mem_append, List.forall_mem_cons]
    exact ⟨⟨⟨passable_of_kind hf rfl, passable_of_kind hx rfl, passable_of_kind h₁ rfl, hp.passable⟩,
      passable_of_kind h₂ rfl, hr.passable⟩, passable_of_kind his rfl, by simp⟩
  | right hl ho | nextSummand hl ho | nextMultiplicand hl ho =>
    simp only [List.forall_mem_append, List.forall_mem_cons]
    exact ⟨hl.passable, passable_operator ho rfl rfl, by simp⟩
  | result hp ho =>
    simp only [List.forall_mem_append, List.forall_mem_cons]
    exact ⟨hp.passable, passable_of_kind ho rfl, by simp⟩

theorem Halts.passable {c : Tier} {n : Nat} {ts : List Token} {r : Reason} (h : Halts c n ts r) :
    ∀ t ∈ ts, Passable t := by
  cases h with
  | expressionLevel | typeLevel | expression | term | number | atomicType => simp
  | kwThen hi hc =>
    simp only [List.forall_mem_cons]
    exact ⟨passable_of_kind hi rfl, hc.passable⟩
  | kwElse hi hc hth hy =>
    simp only [List.forall_mem_append, List.forall_mem_cons]
    exact ⟨⟨passable_of_kind hi rfl, hc.passable⟩, passable_of_kind hth rfl, hy.passable⟩
  | param hf => simpa using passable_of_kind hf rfl
  | colon hf hx =>
    simp only [List.forall_mem_cons]
    exact ⟨passable_of_kind hf rfl, passable_of_kind hx rfl, by simp⟩
  | nextColon hf hx h₁ hp =>
    simp only [List.forall_mem_cons]
    exact ⟨passable_of_kind hf rfl, passable_of_kind hx rfl, passable_of_kind h₁ rfl, hp.passable⟩
  | kwIs hf hx h₁ hp h₂ hr =>
    simp only [List.forall_mem_append, List.forall_mem_cons]
    exact ⟨⟨passable_of_kind hf rfl, passable_of_kind hx rfl, passable_of_kind h₁ rfl, hp.passable⟩,
      passable_of_kind h₂ rfl, hr.passable⟩
  | rightParen hl he | typeRightParen hl he =>
    simp only [List.forall_mem_cons]
    exact ⟨passable_of_kind hl rfl, he.passable⟩

theorem Stops.passable {c : Tier} {n : Nat} {ts : List Token} {r : Reason} (h : Stops c n ts r) :
    ∀ t ∈ ts, Passable t := by
  induction h with
  | halt h => exact h.passable
  | inside ho _ ih =>
    rw [List.forall_mem_append]
    exact ⟨ho.passable, ih⟩
  | taken hk _ _ ih =>
    rw [List.forall_mem_append]
    refine ⟨?_, ih⟩
    cases hk with
    | comparison => simp
    | argument hf => exact hf.passable

/-- A construct below an expression that stops at its first token needs a term there. -/
theorem Stops.at_start {c : Tier} {n : Nat} {ts : List Token} {r : Reason} (h : Stops c n ts r) (hts : ts = [])
    (he : c ≠ .expression) (ht : c ≠ .type) (ha : c ≠ .atomicType) : r = .badNumber ∨ r = .refused termStart := by
  induction h with
  | halt h =>
    cases h with
    | term => exact .inr rfl
    | number => exact .inl rfl
    | _ => simp_all
  | inside ho _ ih =>
    obtain ⟨hts, hus⟩ := List.append_eq_nil_iff.mp hts
    cases ho with
    | left | summand | multiplicand | function => exact ih hus (by simp) (by simp) (by simp)
    | _ => simp_all
  | taken hk _ _ ih =>
    cases hk with
    | comparison => exact absurd rfl he
    | argument hf => exact absurd (List.append_eq_nil_iff.mp hts).1 hf.ne_nil

/-! ## More levels -/

theorem Opens.raise {c d : Tier} {n m : Nat} {ts : List Token} (h : Opens c n ts d m) (k : Nat) :
    Opens c (n + k) ts d (m + k) := by
  have more : ∀ n, n + 1 + k = n + k + 1 := fun n => Nat.add_right_comm n 1 k
  cases h with
  | condition hi => rw [more]; exact .condition hi
  | yes hi hc hth => rw [more]; exact .yes hi (hc.raise (Nat.le_add_right _ k)) hth
  | no hi hc hth hy hel =>
    rw [more]
    exact .no hi (hc.raise (Nat.le_add_right _ k)) hth (hy.raise (Nat.le_add_right _ k)) hel
  | domain hf hx h₁ => rw [more]; exact .domain hf hx h₁
  | codomain hf hx h₁ hp h₂ => rw [more]; exact .codomain hf hx h₁ (hp.raise (Nat.le_add_right _ k)) h₂
  | body hf hx h₁ hp h₂ hr his =>
    rw [more]
    exact .body hf hx h₁ (hp.raise (Nat.le_add_right _ k)) h₂ (hr.raise (Nat.le_add_right _ k)) his
  | left => exact .left
  | right hl ho => exact .right (hl.raise (Nat.le_add_right _ k)) ho
  | summand => exact .summand
  | nextSummand hl ho => exact .nextSummand (hl.raise (Nat.le_add_right _ k)) ho
  | multiplicand => exact .multiplicand
  | nextMultiplicand hl ho => exact .nextMultiplicand (hl.raise (Nat.le_add_right _ k)) ho
  | function => exact .function
  | group hl => exact .group hl
  | atomicType => rw [more]; exact .atomicType
  | result hp ho => rw [more]; exact .result (hp.raise (Nat.le_add_right _ k)) ho
  | typeGroup hl => exact .typeGroup hl

theorem Takes.raise {c d : Tier} {n m : Nat} {ts : List Token} (h : Takes c n ts d m) (k : Nat) :
    Takes c (n + k) ts d (m + k) := by
  have more : ∀ n, n + 1 + k = n + k + 1 := fun n => Nat.add_right_comm n 1 k
  cases h with
  | comparison => rw [more]; exact .comparison
  | argument hf => exact .argument (hf.raise (Nat.le_add_right _ k))

theorem Halts.raise {c : Tier} {n : Nat} {ts : List Token} {r : Reason} (h : Halts c n ts r) (hr : r ≠ .tooDeep)
    (k : Nat) : Halts c (n + k) ts r := by
  have more : ∀ n, n + 1 + k = n + k + 1 := fun n => Nat.add_right_comm n 1 k
  cases h with
  | expressionLevel | typeLevel => exact absurd rfl hr
  | expression => rw [more]; exact .expression
  | kwThen hi hc => rw [more]; exact .kwThen hi (hc.raise (Nat.le_add_right _ k))
  | kwElse hi hc hth hy =>
    rw [more]
    exact .kwElse hi (hc.raise (Nat.le_add_right _ k)) hth (hy.raise (Nat.le_add_right _ k))
  | param hf => rw [more]; exact .param hf
  | colon hf hx => rw [more]; exact .colon hf hx
  | nextColon hf hx h₁ hp => rw [more]; exact .nextColon hf hx h₁ (hp.raise (Nat.le_add_right _ k))
  | kwIs hf hx h₁ hp h₂ ht =>
    rw [more]
    exact .kwIs hf hx h₁ (hp.raise (Nat.le_add_right _ k)) h₂ (ht.raise (Nat.le_add_right _ k))
  | term => exact .term
  | number => exact .number
  | rightParen hl he => exact .rightParen hl (he.raise (Nat.le_add_right _ k))
  | atomicType => exact .atomicType
  | typeRightParen hl ht => exact .typeRightParen hl (ht.raise (Nat.le_add_right _ k))

/-- Only for want of levels does a production stop anywhere that it would not with more. -/
theorem Stops.raise {c : Tier} {n : Nat} {ts : List Token} {r : Reason} (h : Stops c n ts r) (hr : r ≠ .tooDeep)
    (k : Nat) : Stops c (n + k) ts r := by
  induction h with
  | halt h => exact .halt (h.raise hr k)
  | inside ho _ ih => exact .inside (ho.raise k) (ih hr)
  | taken ht _ hb ih => exact .taken (ht.raise k) (ih hr) hb

end LambdaSyntax.Parse
