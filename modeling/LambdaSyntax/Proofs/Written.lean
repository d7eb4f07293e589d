/-
  LambdaSyntax.Proofs.Written — the words of a tree make the tree again.

  `Stands n ts t`: the tokens make `t` with `n` levels inside wherever it binds tight enough to
  stand. A part that does not stands in parentheses, and takes a level more
  (`Written.operand`). By induction on the tree its words do so with `inside t` levels
  (`written`, `writtenType`), which is the fewest there can be.
-/

import LambdaSyntax.Proofs.Cuts
import LambdaSyntax.Proofs.Levels

namespace LambdaSyntax

open LambdaSyntax.Tree Grammar

variable {σ : Type} {n m : Nat} {c : Tier} {ts : List Token} {t : Tree Unit}

/-! ## Literals -/

theorem isNumber_text {n : Nat} (h : n ≤ Literal.largest) : Literal.IsNumber (Scalar.number n).text.toList n := by
  refine ⟨isDigits_number n, ?_, h⟩
  rw [toList_number]
  exact Nat.ofDigitChars_ten_toDigits

/-! ## Where a tree may stand -/

/-- The tiers of operands, with the rank that a tree has to have to stand there. -/
inductive Place : Tier → Nat → Prop
  | sum : Place .sum 1
  | factor : Place .factor 2
  | application : Place .application 3
  | term : Place .term 4

structure Stands (n : Nat) (ts : List Token) (t : Tree Unit) : Prop where
  expression : Derives .expression (n + 1) ts t
  operand {c : Tier} {m : Nat} : Place c m → m ≤ t.rank → Derives c n ts t

theorem Place.of_term (hc : Place c m) (h : Derives .term n ts t) : Derives c n ts t := by
  cases hc with
  | sum => exact .factor (.application (.term h))
  | factor => exact .application (.term h)
  | application => exact .term h
  | term => exact h

theorem stands_of_term (h : Derives .term n ts t) : Stands n ts t :=
  ⟨.comparison (.sum (.factor (.application (.term h)))), fun hc _ => hc.of_term h⟩

theorem stands_of_application (h : Derives .application n ts t) (hr : t.rank ≤ 3) : Stands n ts t := by
  refine ⟨.comparison (.sum (.factor (.application h))), ?_⟩
  intro c m hc hm
  cases hc with
  | sum => exact .factor (.application h)
  | factor => exact .application h
  | application => exact h
  | term => omega

theorem stands_of_factor (h : Derives .factor n ts t) (hr : t.rank ≤ 2) : Stands n ts t := by
  refine ⟨.comparison (.sum (.factor h)), ?_⟩
  intro c m hc hm
  cases hc with
  | sum => exact .factor h
  | factor => exact h
  | application | term => omega

theorem stands_of_sum (h : Derives .sum n ts t) (hr : t.rank ≤ 1) : Stands n ts t := by
  refine ⟨.comparison (.sum h), ?_⟩
  intro c m hc hm
  cases hc with
  | sum => exact h
  | factor | application | term => omega

theorem stands_of_expression (h : Derives .expression (n + 1) ts t) (hr : t.rank = 0) : Stands n ts t := by
  refine ⟨h, ?_⟩
  intro c m hc hm
  cases hc <;> omega

theorem Spelled.parenthesized {ws : List String} (h : Spelled ts ("(" :: ws ++ [")"])) :
    ∃ l us r, ts = l :: us ++ [r] ∧ l.kind = .leftParen ∧ r.kind = .rightParen ∧ Spelled us ws := by
  obtain ⟨l, xs, rfl, -, hl, hx⟩ := h.cons (k := .leftParen) (by decide)
  obtain ⟨us, vs, rfl, hu, hv⟩ := Spelled.append hx
  obtain ⟨r, rfl, -, hr⟩ := hv.single (k := .rightParen) (by decide)
  exact ⟨l, us, r, rfl, hl, hr, hu⟩

/-- The words of the tree make it, with as many levels as are inside it. -/
def Written (t : Tree Unit) : Prop := ∀ n ts, t.inside ≤ n → Spelled ts t.words → Stands n ts t

theorem Written.expression (h : Written t) (hn : t.inside + 1 ≤ n) (hs : Spelled ts t.words) :
    Derives .expression n ts t := by
  obtain ⟨k, rfl⟩ := Nat.exists_eq_add_of_le hn
  have hstands := h (t.inside + k) ts (Nat.le_add_right _ _) hs
  rw [Nat.add_right_comm]
  exact hstands.expression

theorem Written.operand (h : Written t) (hc : Place c m) (hn : held (t.rank < m) t.inside ≤ n)
    (hs : Spelled ts (grouped (t.rank < m) t.words)) : Derives c n ts t := by
  by_cases hm : t.rank < m
  · simp only [held, grouped, hm, decide_true, if_true] at hn hs
    obtain ⟨l, us, r, rfl, hl, hr, hu⟩ := hs.parenthesized
    exact hc.of_term (.group hl (h.expression hn hu) hr)
  · simp only [held, grouped, hm, decide_false, Bool.false_eq_true, if_false] at hn hs
    exact (h n ts hn hs).operand hc (by omega)

/-! ## Types -/

def WrittenType (t : Tree Unit) : Prop := ∀ n ts, t.inside ≤ n → Spelled ts t.words →
  Derives .type (n + 1) ts t ∧ (t.isArrow = false → Derives .atomicType n ts t)

theorem WrittenType.type (h : WrittenType t) (hn : t.inside + 1 ≤ n) (hs : Spelled ts t.words) :
    Derives .type n ts t := by
  obtain ⟨k, rfl⟩ := Nat.exists_eq_add_of_le hn
  rw [Nat.add_right_comm]
  exact (h (t.inside + k) ts (Nat.le_add_right _ _) hs).1

theorem WrittenType.atomic (h : WrittenType t) (hn : held t.isArrow t.inside ≤ n)
    (hs : Spelled ts (grouped t.isArrow t.words)) : Derives .atomicType n ts t := by
  cases ha : t.isArrow with
  | true =>
    simp only [held, grouped, ha, if_true] at hn hs
    obtain ⟨l, us, r, rfl, hl, hr, hu⟩ := hs.parenthesized
    exact .typeGroup hl (h.type hn hu) hr
  | false =>
    simp only [held, grouped, ha, Bool.false_eq_true, if_false] at hn hs
    exact (h n ts hn hs).2 ha

theorem writtenType (h : t.isType = true) : WrittenType t := by
  induction t with
  | int =>
    intro n ts _ hs
    obtain ⟨t, rfl, -, hk⟩ := hs.single (k := .kwInt) (by decide)
    exact ⟨.atomicType (.int hk), fun _ => .int hk⟩
  | bool =>
    intro n ts _ hs
    obtain ⟨t, rfl, -, hk⟩ := hs.single (k := .kwBool) (by decide)
    exact ⟨.atomicType (.bool hk), fun _ => .bool hk⟩
  | arrow p r _ ihp ihr =>
    rw [isType, Bool.and_eq_true] at h
    intro n ts hn hs
    rw [inside, Nat.max_le] at hn
    obtain ⟨ps, vs, rfl, hp, hv⟩ := hs.append
    obtain ⟨o, rs, rfl, -, ho, hr⟩ := hv.cons (k := .arrow) (by decide)
    exact ⟨.arrow ((ihp h.1).atomic hn.1 hp) ho ((ihr h.2).type hn.2 hr), fun ha => by cases ha⟩
  | _ => cases h

/-! ## Expressions -/

theorem spelled_sumOp {op : ArithOp} (h : op.rank = 1) : ∃ k, classOf? op.symbol.toList = some k ∧ SumOp k op := by
  cases op with
  | add => exact ⟨.plus, by decide, .plus⟩
  | sub => exact ⟨.minus, by decide, .minus⟩
  | mul | div => cases h

theorem spelled_factorOp {op : ArithOp} (h : op.rank = 2) :
    ∃ k, classOf? op.symbol.toList = some k ∧ FactorOp k op := by
  cases op with
  | mul => exact ⟨.times, by decide, .times⟩
  | div => exact ⟨.divide, by decide, .divide⟩
  | add | sub => cases h

theorem spelled_compareOp (op : CompareOp) : ∃ k, classOf? op.symbol.toList = some k ∧ ComparisonOp k op := by
  cases op with
  | less => exact ⟨.less, by decide, .less⟩
  | equal => exact ⟨.equal, by decide, .equal⟩
  | greater => exact ⟨.greater, by decide, .greater⟩

theorem written_literal {v : Scalar} {sort : String} (h : isLiteral v sort = true) (hf : v.toInt ≤ Literal.largest) :
    Written (.literal v sort ()) := by
  intro n ts _ hs
  rcases isLiteral_cases h with ⟨m, rfl, rfl⟩ | ⟨b, rfl, rfl⟩
  · obtain ⟨t, rfl, hl, hk⟩ := hs.single (classOf?_number m)
    refine stands_of_term (.integer hk ?_)
    rw [hl]
    exact isNumber_text (by simpa [Scalar.toInt] using hf)
  · cases b with
    | false =>
      obtain ⟨t, rfl, -, hk⟩ := hs.single (k := .kwFalse) (by decide)
      exact stands_of_term (.falseWord hk)
    | true =>
      obtain ⟨t, rfl, -, hk⟩ := hs.single (k := .kwTrue) (by decide)
      exact stands_of_term (.trueWord hk)

theorem written (h : t.isExpression = true) (hf : t.fits = true) : Written t := by
  induction t with
  | var x =>
    intro n ts _ hs
    obtain ⟨t, rfl, rfl, hk⟩ := hs.single (classOf?_eq_identifier.mpr h)
    exact stands_of_term (.var hk)
  | literal v sort => exact written_literal h (by simpa [fits] using hf)
  | arith op l r _ ihl ihr =>
    rw [isExpression, Bool.and_eq_true] at h
    rw [fits, Bool.and_eq_true] at hf
    have hl := ihl h.1 hf.1
    have hr := ihr h.2 hf.2
    intro n ts hn hs
    rw [inside, Nat.max_le] at hn
    obtain ⟨ls, vs, rfl, hls, hvs⟩ := hs.append
    by_cases hop : op.rank = 1
    · obtain ⟨k, hk, ho⟩ := spelled_sumOp hop
      obtain ⟨o, rs, rfl, -, rfl, hrs⟩ := hvs.cons hk
      rw [hop] at hn hls hrs
      refine stands_of_sum (.add (hl.operand .sum hn.1 hls) ho (hr.operand .factor ?_ ?_)) (Nat.le_of_eq hop)
      · simpa [Nat.lt_succ_iff] using hn.2
      · simpa [Nat.lt_succ_iff] using hrs
    · have hop : op.rank = 2 := by cases op <;> simp_all [ArithOp.rank]
      obtain ⟨k, hk, ho⟩ := spelled_factorOp hop
      obtain ⟨o, rs, rfl, -, rfl, hrs⟩ := hvs.cons hk
      rw [hop] at hn hls hrs
      refine stands_of_factor (.mul (hl.operand .factor hn.1 hls) ho (hr.operand .application ?_ ?_))
        (Nat.le_of_eq hop)
      · simpa [Nat.lt_succ_iff] using hn.2
      · simpa [Nat.lt_succ_iff] using hrs
  | compare op l r _ ihl ihr =>
    rw [isExpression, Bool.and_eq_true] at h
    rw [fits, Bool.and_eq_true] at hf
    intro n ts hn hs
    rw [inside, Nat.max_le] at hn
    obtain ⟨k, hk, ho⟩ := spelled_compareOp op
    obtain ⟨ls, vs, rfl, hls, hvs⟩ := hs.append
    obtain ⟨o, rs, rfl, -, rfl, hrs⟩ := hvs.cons hk
    have hl := (ihl h.1 hf.1).operand .sum hn.1 hls
    have hr := (ihr h.2 hf.2).operand .sum hn.2 hrs
    exact stands_of_expression (.comparison (.compare hl ho hr)) rfl
  | apply f a _ ihf iha =>
    rw [isExpression, Bool.and_eq_true] at h
    rw [fits, Bool.and_eq_true] at hf
    intro n ts hn hs
    rw [inside, Nat.max_le] at hn
    obtain ⟨fs, as, rfl, hfs, has⟩ := hs.append
    have hfun := (ihf h.1 hf.1).operand .application hn.1 hfs
    have harg := (iha h.2 hf.2).operand .term hn.2 has
    exact stands_of_application (.apply hfun harg) (Nat.le_refl _)
  | cond c y z _ ihc ihy ihz =>
    rw [isExpression, Bool.and_eq_true, Bool.and_eq_true] at h
    rw [fits, Bool.and_eq_true, Bool.and_eq_true] at hf
    intro n ts hn hs
    rw [inside, Nat.max_le, Nat.max_le] at hn
    obtain ⟨_, vs, rfl, hs, hv⟩ := hs.append
    obtain ⟨_, us, rfl, hs, hu⟩ := hs.append
    obtain ⟨i, cs, rfl, -, hi, hcs⟩ := hs.cons (k := .kwIf) (by decide)
    obtain ⟨th, ys, rfl, -, hth, hys⟩ := hu.cons (k := .kwThen) (by decide)
    obtain ⟨el, zs, rfl, -, hel, hzs⟩ := hv.cons (k := .kwElse) (by decide)
    have hc := (ihc h.1.1 hf.1.1).expression hn.1 hcs
    have hy := (ihy h.1.2 hf.1.2).expression hn.2.1 hys
    have hz := (ihz h.2 hf.2).expression hn.2.2 hzs
    exact stands_of_expression (.cond hi hc hth hy hel hz) rfl
  | func x p r b _ _ _ ihb =>
    rw [isExpression, Bool.and_eq_true, Bool.and_eq_true, Bool.and_eq_true] at h
    rw [fits, Bool.and_eq_true, Bool.and_eq_true] at hf
    intro n ts hn hs
    rw [inside, Nat.max_le, Nat.max_le] at hn
    obtain ⟨_, vs, rfl, hs, hv⟩ := hs.append
    obtain ⟨_, us, rfl, hs, hu⟩ := hs.append
    obtain ⟨fn, _, rfl, -, hfn, hs⟩ := hs.cons (k := .kwFun) (by decide)
    obtain ⟨y, _, rfl, hyx, hy, hs⟩ := hs.cons (classOf?_eq_identifier.mpr h.1.1.1)
    obtain ⟨c₁, ps, rfl, -, h₁, hps⟩ := hs.cons (k := .colon) (by decide)
    obtain ⟨c₂, rs, rfl, -, h₂, hrs⟩ := hu.cons (k := .colon) (by decide)
    obtain ⟨is, bs, rfl, -, his, hbs⟩ := hv.cons (k := .kwIs) (by decide)
    have hp := (writtenType h.1.1.2).type hn.1 hps
    have hr := (writtenType h.1.2).type hn.2.1 hrs
    have hb := (ihb h.2 hf.2).expression hn.2.2 hbs
    subst hyx
    exact stands_of_expression (.func hfn hy h₁ hp h₂ hr his hb) rfl
  | _ => cases h

/-! ## Every word is a lexeme -/

def Lexemes (ws : List String) : Prop := ∀ w ∈ ws, (classOf? w.toList).isSome

theorem lexemes_grouped {b : Bool} {ws : List String} (h : Lexemes ws) : Lexemes (grouped b ws) := by
  unfold grouped Lexemes
  split
  · simp only [List.forall_mem_append, List.forall_mem_cons]
    exact ⟨⟨by decide, h⟩, by decide, by simp⟩
  · exact h

theorem lexemes_type (h : t.isType = true) : Lexemes t.words := by
  unfold Lexemes
  induction t with
  | int | bool =>
    simp only [words, List.forall_mem_cons]
    exact ⟨by decide, by simp⟩
  | arrow p r _ ihp ihr =>
    rw [isType, Bool.and_eq_true] at h
    simp only [words, List.forall_mem_append, List.forall_mem_cons]
    exact ⟨lexemes_grouped (ihp h.1), by decide, ihr h.2⟩
  | _ => cases h

theorem lexemes_words (h : t.isExpression = true) : Lexemes t.words := by
  unfold Lexemes
  induction t with
  | var x =>
    simp only [words, List.forall_mem_cons]
    exact ⟨by rw [classOf?_eq_identifier.mpr h]; rfl, by simp⟩
  | literal v sort =>
    simp only [words, List.forall_mem_cons]
    obtain ⟨k, -, hk⟩ := classOf?_literal h
    exact ⟨by rw [hk]; rfl, by simp⟩
  | arith op l r _ ihl ihr =>
    rw [isExpression, Bool.and_eq_true] at h
    simp only [words, List.forall_mem_append, List.forall_mem_cons]
    exact ⟨lexemes_grouped (ihl h.1), by cases op <;> decide, lexemes_grouped (ihr h.2)⟩
  | compare op l r _ ihl ihr =>
    rw [isExpression, Bool.and_eq_true] at h
    simp only [words, List.forall_mem_append, List.forall_mem_cons]
    exact ⟨lexemes_grouped (ihl h.1), by cases op <;> decide, lexemes_grouped (ihr h.2)⟩
  | apply f a _ ihf iha =>
    rw [isExpression, Bool.and_eq_true] at h
    simp only [words, List.forall_mem_append]
    exact ⟨lexemes_grouped (ihf h.1), lexemes_grouped (iha h.2)⟩
  | cond c y z _ ihc ihy ihz =>
    rw [isExpression, Bool.and_eq_true, Bool.and_eq_true] at h
    simp only [words, List.forall_mem_append, List.forall_mem_cons]
    exact ⟨⟨⟨by decide, ihc h.1.1⟩, by decide, ihy h.1.2⟩, by decide, ihz h.2⟩
  | func x p r b _ _ _ ihb =>
    rw [isExpression, Bool.and_eq_true, Bool.and_eq_true, Bool.and_eq_true] at h
    simp only [words, List.forall_mem_append, List.forall_mem_cons]
    exact ⟨⟨⟨by decide, by rw [classOf?_eq_identifier.mpr h.1.1.1]; rfl, by decide, lexemes_type h.1.1.2⟩, by decide,
      lexemes_type h.1.2⟩, by decide, ihb h.2⟩
  | _ => cases h

end LambdaSyntax
