/-
  LambdaSyntax.Proofs.Leads — how far given tokens take a production.

  `Leads p ts q`: over the tokens `ts`, whatever stands behind them, `p` comes to the point
  where `q` is left to do. `Continues` is the same when certain kinds do not follow,
  `Completes` is said of a production that reads a construct to its end, and `Fails` of one
  that stops. The lemmas named `leads_…` go through the constructs part by part.

  A repetition has no fixed end: `operandsFrom` and `argumentsFrom` are what it has left to do
  behind an operand, and how many rounds it is allowed does not matter.
-/

import LambdaSyntax.Proofs.Descent

namespace LambdaSyntax.Parse

variable {S : Setting} {α β : Type} {n m : Nat} {c d : Tier} {ts us : List Token} {u : Marked} {f : KindSet}
  {r : Reason} {k : Kind}

theorem bind_congr {p : Production α} {F G : α → Production β} {s : State}
    (h : ∀ a s', p s = .ok a s' → F a s' = G a s') : (p >>= F) s = (p >>= G) s := by
  cases hp : p s with
  | ok a s' => rw [bind_ok hp, bind_ok hp, h a s' hp]
  | error e s' => rw [bind_error hp, bind_error hp]

/-! ## From one production to what is left of it -/

def Leads (p : Production α) (ts : List Token) (q : Production α) : Prop :=
  ∀ i more g, ∃ g', p ⟨i, ts ++ more, g⟩ = q ⟨i + ts.length, more, g'⟩

theorem Leads.refl (p : Production α) : Leads p [] p := fun _ _ g => ⟨g, rfl⟩

theorem Leads.trans {p q w : Production α} (h : Leads p ts q) (k : Leads q us w) : Leads p (ts ++ us) w := by
  intro i more g
  obtain ⟨g₁, h₁⟩ := h i (us ++ more) g
  obtain ⟨g₂, h₂⟩ := k (i + ts.length) more g₁
  refine ⟨g₂, ?_⟩
  rw [List.append_assoc, h₁, h₂, List.length_append, Nat.add_assoc]

theorem leads_advance {t : Token} (ht : t.kind ≠ .finish) (F : Token → Production α) :
    Leads (advance S >>= F) [t] (F t) :=
  fun _ _ g => ⟨g, bind_ok (advance_at ht)⟩

theorem leads_consume {t : Token} (ht : t.kind = k) (hk : k ≠ .finish) (F : Token → Production α) :
    Leads (consume S k >>= F) [t] (F t) :=
  fun _ _ g => ⟨g, bind_ok (consume_at ht hk)⟩

/-- `p` reads exactly `ts` as `u` when none of `f` follows, and leaves `f` behind if its tier does. -/
def Completes (S : Setting) (c : Tier) (p : Production Marked) (ts : List Token) (u : Marked) (f : KindSet) :
    Prop :=
  ∀ i more g, (more.headD S.closing).kind ∉ f →
    ∃ g', p ⟨i, ts ++ more, g⟩ = .ok u ⟨i + ts.length, more, g'⟩ ∧ (remembers c → g' = f)

/-- `p` stops behind `ts` for the reason `r` wherever that applies. -/
def Fails (S : Setting) (p : Production Marked) (ts : List Token) (r : Reason) : Prop :=
  ∀ i more g e, Raises S (more.headD S.closing) (i + ts.length) r e → ∃ s, p ⟨i, ts ++ more, g⟩ = .error e s

theorem Raises.refused {s : State} {expected : KindSet} {e : SyntaxError}
    (h : Raises S (s.current S) s.index (.refused expected) e) :
    (s.current S).kind ∉ expected ∧ e = s.refusal S expected := by
  unfold State.refusal
  cases h with
  | unexpected hk hf => exact ⟨hk, by rw [if_neg hf]⟩
  | unexpectedEnd hk hf => exact ⟨hk, by rw [if_pos hf]⟩

theorem Completes.leads {p : Production Marked} {t : Token} (h : Completes S c p ts u f) (ht : t.kind = k)
    (hf : k ∉ f) (hk : k ≠ .finish) (F : Marked → Token → Production Marked) :
    Leads (p >>= fun a => close S k >>= F a) (ts ++ [t]) (F u t) := by
  intro i more g
  obtain ⟨g', hp, -⟩ := h i (t :: more) g (by simpa [ht] using hf)
  refine ⟨g', ?_⟩
  rw [List.append_assoc, List.singleton_append, bind_ok hp, bind_ok (close_at ht hk), List.length_append,
    List.length_singleton, Nat.add_assoc]

theorem Completes.fails {p : Production Marked} (h : Completes S c p ts u f) (hc : remembers c)
    (F : Marked → Token → Production Marked) :
    Fails S (p >>= fun a => close S k >>= F a) ts (.refused (f ∪ .single k)) := by
  intro i more g e he
  obtain ⟨hk, rfl⟩ := Raises.refused (s := ⟨i + ts.length, more, f⟩) he
  rw [KindSet.mem_union, KindSet.mem_single, not_or] at hk
  obtain ⟨g', hp, hg⟩ := h i more g hk.1
  obtain rfl := hg hc
  exact ⟨_, (bind_ok hp).trans (bind_error (close_refuses hk.2))⟩

theorem Completes.map {p : Production Marked} (h : Completes S c p ts u f) (F : Marked → Marked) :
    Completes S c (p >>= fun a => pure (F a)) ts (F u) f := by
  intro i more g hk
  obtain ⟨g', hp, hg⟩ := h i more g hk
  exact ⟨g', bind_ok hp, hg⟩

theorem Leads.completes {p q : Production Marked} (h : Leads p ts q) (hq : Completes S c q us u f) :
    Completes S c p (ts ++ us) u f := by
  intro i more g hk
  obtain ⟨g₁, h₁⟩ := h i (us ++ more) g
  obtain ⟨g₂, h₂, hg⟩ := hq (i + ts.length) more g₁ hk
  refine ⟨g₂, ?_, hg⟩
  rw [List.append_assoc, h₁, h₂, List.length_append, Nat.add_assoc]

theorem Leads.fails {p q : Production Marked} (h : Leads p ts q) (hq : Fails S q us r) : Fails S p (ts ++ us) r := by
  intro i more g e he
  obtain ⟨g', h'⟩ := h i (us ++ more) g
  rw [List.length_append, ← Nat.add_assoc] at he
  obtain ⟨s, hs⟩ := hq (i + ts.length) more g' e he
  exact ⟨s, by rw [List.append_assoc, h', hs]⟩

/-- `p` comes to `q` over the tokens `ts` when none of `f` follows. -/
def Continues (S : Setting) (p : Production Marked) (ts : List Token) (q : Production Marked) (f : KindSet) : Prop :=
  ∀ i more g, (more.headD S.closing).kind ∉ f → ∃ g', p ⟨i, ts ++ more, g⟩ = q ⟨i + ts.length, more, g'⟩

theorem Completes.continues {p : Production Marked} (h : Completes S c p ts u f) (F : Marked → Production Marked) :
    Continues S (p >>= F) ts (F u) f := by
  intro i more g hk
  obtain ⟨g', hp, -⟩ := h i more g hk
  exact ⟨g', bind_ok hp⟩

theorem Leads.continues {p q w : Production Marked} (h : Leads p ts q) (hq : Continues S q us w f) :
    Continues S p (ts ++ us) w f := by
  intro i more g hk
  obtain ⟨g₁, h₁⟩ := h i (us ++ more) g
  obtain ⟨g₂, h₂⟩ := hq (i + ts.length) more g₁ hk
  refine ⟨g₂, ?_⟩
  rw [List.append_assoc, h₁, h₂, List.length_append, Nat.add_assoc]

theorem Fails.bind {p : Production Marked} (h : Fails S p ts r) (F : Marked → Production Marked) :
    Fails S (p >>= F) ts r := by
  intro i more g e he
  obtain ⟨s, hs⟩ := h i more g e he
  exact ⟨s, bind_error hs⟩

/-! ## Repetitions -/

def Consumes (p : Production Marked) : Prop := ∀ s u s', p s = .ok u s' → s'.rest.length < s.rest.length

theorem Explained.consumes {p : Production Marked} (h : Explained S c n p) : Consumes p := by
  intro s u s' hp
  have hs := h s
  rw [hp] at hs
  obtain ⟨ts, f, hpass, hr, -⟩ := hs
  have h1 := congrArg List.length hpass.rest
  have h2 := List.length_pos_iff.mpr hr.ne_nil
  rw [List.length_append] at h1
  omega

section Operands

variable {op? : Kind → Option ArithOp} {operand : Production Marked} (hc : Consumes operand)
  (hop : ∀ k op, op? k = some op → k ≠ .finish) (hS : S.closing.kind = .finish)

def operandsFrom (S : Setting) (op? : Kind → Option ArithOp) (operand : Production Marked) (u : Marked) :
    Production Marked := fun s => operands S op? operand s.rest u s

theorem operands_of_none (h : op? k = none) {s : State} (hk : (s.current S).kind = k) (bound : List Token) :
    operands S op? operand bound u s = .ok u s := by
  cases bound with
  | nil => rfl
  | cons b bound =>
    unfold operands
    rw [peek_bind, hk, h]
    rfl

include hc hop hS

/-- How many rounds are allowed does not matter once there is one for each token. -/
theorem operands_bound (b b' : List Token) {s : State} (hb : s.rest.length ≤ b.length)
    (hb' : s.rest.length ≤ b'.length) : operands S op? operand b u s = operands S op? operand b' u s := by
  induction b generalizing b' s u with
  | nil =>
    have hk : (s.current S).kind = .finish := by
      have hr : s.rest = [] := List.eq_nil_of_length_eq_zero (Nat.le_zero.mp hb)
      rw [State.current, hr]
      exact hS
    have hn : op? .finish = none := Option.eq_none_iff_forall_ne_some.mpr fun op h => hop _ op h rfl
    rw [operands_of_none hn hk, operands_of_none hn hk]
  | cons x b ih =>
    cases hk : op? (s.current S).kind with
    | none => rw [operands_of_none hk rfl, operands_of_none hk rfl]
    | some op =>
      obtain ⟨i, rest, g⟩ := s
      cases rest with
      | nil => exact absurd hS (hop _ op hk)
      | cons t ts =>
        have ht : t.kind ≠ .finish := hop _ op hk
        obtain ⟨y, b', rfl⟩ := List.exists_cons_of_length_pos (Nat.lt_of_lt_of_le (Nat.succ_pos _) hb')
        unfold operands
        rw [peek_bind, peek_bind, hk]
        refine bind_congr fun o s₁ h₁ => bind_congr fun a s₂ h₂ => ih b' ?_ ?_
        all_goals
          rw [advance_at ht] at h₁
          cases h₁
          have := hc _ _ _ h₂
          simp only [List.length_cons] at this hb hb'
          omega

theorem operandsFrom_some {op : ArithOp} {t : Token} (h : op? t.kind = some op) (i : Nat) (g : KindSet) :
    operandsFrom S op? operand u ⟨i, t :: ts, g⟩ =
      (operand >>= fun a => operandsFrom S op? operand (.arith op u a (u.mark.cover a.mark))) ⟨i + 1, ts, g⟩ := by
  have hk : op? ((⟨i, t :: ts, g⟩ : State).current S).kind = some op := h
  show operands S op? operand (t :: ts) u ⟨i, t :: ts, g⟩ = _
  unfold operands
  rw [peek_bind, hk]
  refine (bind_ok (advance_at (hop _ op h))).trans (bind_congr ?_)
  intro a s' ha
  exact operands_bound hc hop hS ts s'.rest (Nat.le_of_lt (hc _ _ _ ha)) (Nat.le_refl _)

end Operands

/-- Behind an operand and an operator the next operand is left to do. -/
theorem Joins.leads {op? : Kind → Option ArithOp} {operand p : Production Marked} {g : KindSet} {op : ArithOp}
    {o : Token} {ls : List Token} {l : Marked} (J : Joins c d op? f g) (hc : Consumes operand) (hS : S.closing.kind = .finish)
    (h : Continues S p ls (operandsFrom S op? operand l) g) (ho : op? o.kind = some op) :
    Leads p (ls ++ [o]) (operand >>= fun a => operandsFrom S op? operand (.arith op l a (l.mark.cover a.mark))) := by
  have hop : ∀ k op, op? k = some op → k ≠ .finish := fun _ _ h => (J.separates h).2
  intro i more g₀
  obtain ⟨g', h'⟩ := h i (o :: more) g₀ (J.separates ho).1
  refine ⟨g', ?_⟩
  rw [List.append_assoc, List.singleton_append, h', operandsFrom_some hc hop hS ho, List.length_append,
    List.length_singleton, Nat.add_assoc]

/-- Behind the last operand nothing is left to do. -/
theorem Joins.completes {op? : Kind → Option ArithOp} {operand p : Production Marked} {g : KindSet}
    (J : Joins c d op? f g) (h : Continues S p ts (operandsFrom S op? operand u) g) : Completes S c p ts u f := by
  intro i more g₀ hk
  have hend := J.ends.mp hk
  obtain ⟨g', h'⟩ := h i more g₀ hend.1
  have hk' : ((⟨i + ts.length, more, g'⟩ : State).current S).kind = (more.headD S.closing).kind := rfl
  exact ⟨g', h'.trans (operands_of_none hend.2 hk' more), by simp [J.forgets]⟩

section Arguments

variable {nested : Production Marked} (hc : Consumes (term S nested)) (hS : S.closing.kind = .finish)

def argumentsFrom (S : Setting) (nested : Production Marked) (u : Marked) : Production Marked :=
  fun s => arguments S nested s.rest u s

theorem arguments_of_not_mem {s : State} (hk : (s.current S).kind ∉ termStart) (bound : List Token) :
    arguments S nested bound u s = .ok u s := by
  cases bound with
  | nil => rfl
  | cons b bound =>
    unfold arguments
    rw [peek_bind, if_neg hk]
    rfl

include hc hS

theorem arguments_bound (b b' : List Token) {s : State} (hb : s.rest.length ≤ b.length)
    (hb' : s.rest.length ≤ b'.length) : arguments S nested b u s = arguments S nested b' u s := by
  induction b generalizing b' s u with
  | nil =>
    have hk : (s.current S).kind ∉ termStart :=
      not_mem_of_rest_nil hS (by decide) (List.eq_nil_of_length_eq_zero (Nat.le_zero.mp hb))
    rw [arguments_of_not_mem hk, arguments_of_not_mem hk]
  | cons x b ih =>
    by_cases hk : (s.current S).kind ∈ termStart
    · have hne : 0 < s.rest.length := by
        rw [List.length_pos_iff]
        intro h
        exact not_mem_of_rest_nil hS (by decide) h hk
      obtain ⟨y, b', rfl⟩ := List.exists_cons_of_length_pos (Nat.lt_of_lt_of_le hne hb')
      unfold arguments
      rw [peek_bind, peek_bind, if_pos hk, if_pos hk]
      refine bind_congr fun a s' ha => ih b' ?_ ?_
      all_goals
        have := hc _ _ _ ha
        simp only [List.length_cons] at hb hb'
        omega
    · rw [arguments_of_not_mem hk, arguments_of_not_mem hk]

theorem argumentsFrom_mem {s : State} (hk : (s.current S).kind ∈ termStart) :
    argumentsFrom S nested u s =
      (term S nested >>= fun a => argumentsFrom S nested (.apply u a (u.mark.cover a.mark))) s := by
  obtain ⟨i, rest, g⟩ := s
  cases rest with
  | nil => exact absurd hk (not_mem_of_rest_nil hS (by decide) rfl)
  | cons t ts =>
    show arguments S nested (t :: ts) u ⟨i, t :: ts, g⟩ = _
    unfold arguments
    rw [peek_bind, if_pos hk]
    refine bind_congr ?_
    intro a s' ha
    have := hc _ _ _ ha
    simp only [List.length_cons] at this
    exact arguments_bound hc hS ts s'.rest (by omega) (Nat.le_refl _)

theorem Continues.applied {p : Production Marked} {fs : List Token}
    (h : Continues S p fs (argumentsFrom S nested u) ∅) {i : Nat} (more : List Token) {g : KindSet}
    (hk : (more.headD S.closing).kind ∈ termStart) :
    ∃ g', p ⟨i, fs ++ more, g⟩ =
      (term S nested >>= fun a => argumentsFrom S nested (.apply u a (u.mark.cover a.mark)))
        ⟨i + fs.length, more, g'⟩ := by
  obtain ⟨g', h'⟩ := h i more g (by simp)
  exact ⟨g', h'.trans (argumentsFrom_mem (s := ⟨i + fs.length, more, g'⟩) hc hS hk)⟩

end Arguments

/-! ## What is left in the middle of a construct -/

variable (S) (nested types : Production Marked)

def noPart (first : Token) (c y : Marked) : Production Marked :=
  nested >>= fun z => pure (.cond c y z ⟨first.loc, z.mark.stop⟩)

def yesPart (first : Token) (c : Marked) : Production Marked :=
  nested >>= fun y => close S .kwElse >>= fun _ => noPart nested first c y

def conditionPart (first : Token) : Production Marked :=
  nested >>= fun c => close S .kwThen >>= fun _ => yesPart S nested first c

def bodyPart (fn x : Token) (p r : Marked) : Production Marked :=
  nested >>= fun b => pure (.func x.lexeme p r b ⟨fn.loc, b.mark.stop⟩)

def codomainPart (fn x : Token) (p : Marked) : Production Marked :=
  types >>= fun r => close S .kwIs >>= fun _ => bodyPart nested fn x p r

def domainPart (fn x : Token) : Production Marked :=
  types >>= fun p => close S .colon >>= fun _ => codomainPart S nested types fn x p

def closedPart : Production Marked := nested >>= fun u => close S .rightParen >>= fun _ => pure u

def rightPart (op : CompareOp) (l : Marked) : Production Marked :=
  sum S nested >>= fun r => setFollow operandFollow >>= fun _ => pure (.compare op l r (l.mark.cover r.mark))

variable {S nested types}

theorem expression_of_mem {s : State} (hk : (s.current S).kind ∈ termStart) :
    expression S (n + 1) s = comparison S (expression S n) s := by
  have hi : (s.current S).kind ≠ .kwIf := fun h => absurd hk (by rw [h]; decide)
  have hf : (s.current S).kind ≠ .kwFun := fun h => absurd hk (by rw [h]; decide)
  show expressionTier S (expression S n) (typeExpr S n) s = _
  unfold expressionTier
  rw [peek_bind, if_neg hi, if_neg hf, if_pos (mem_expressionStart.mpr (.inl hk))]

section Leads

variable {i th el fn x c₁ c₂ is l o : Token} {cs ys ps rs ls : List Token} {a b : Marked} {g : KindSet}

theorem leads_condition (hi : i.kind = .kwIf) :
    Leads (expression S (n + 1)) [i] (conditionPart S (expression S n) i) := by
  intro j more g
  have hk : ((⟨j, [i] ++ more, g⟩ : State).current S).kind = .kwIf := hi
  show ∃ g', expressionTier S (expression S n) (typeExpr S n) _ = _
  unfold expressionTier
  rw [peek_bind, if_pos hk]
  exact leads_advance (by simp [hi]) _ j more g

theorem leads_yes (hi : i.kind = .kwIf) (hc : Completes S .expression (expression S n) cs a f) (hf : .kwThen ∉ f)
    (hth : th.kind = .kwThen) :
    Leads (expression S (n + 1)) (i :: cs ++ [th]) (yesPart S (expression S n) i a) :=
  (leads_condition hi).trans (hc.leads hth hf (by decide) _)

theorem leads_no (hi : i.kind = .kwIf) (hc : Completes S .expression (expression S n) cs a f) (hf : .kwThen ∉ f)
    (hth : th.kind = .kwThen) (hy : Completes S .expression (expression S n) ys b g) (hg : .kwElse ∉ g)
    (hel : el.kind = .kwElse) :
    Leads (expression S (n + 1)) (i :: cs ++ th :: ys ++ [el]) (noPart (expression S n) i a b) := by
  simpa using (leads_yes hi hc hf hth).trans (hy.leads hel hg (by decide) _)

theorem leads_function (hf : fn.kind = .kwFun) :
    Leads (expression S (n + 1)) [fn] (consume S .identifier >>= fun x => consume S .colon >>= fun _ =>
      domainPart S (expression S n) (typeExpr S n) fn x) := by
  intro j more g
  have hk : ((⟨j, [fn] ++ more, g⟩ : State).current S).kind = .kwFun := hf
  show ∃ g', expressionTier S (expression S n) (typeExpr S n) _ = _
  unfold expressionTier
  rw [peek_bind, hk, if_neg (by decide), if_pos rfl]
  exact leads_advance (by simp [hf]) _ j more g

theorem leads_param (hf : fn.kind = .kwFun) (hx : x.kind = .identifier) :
    Leads (expression S (n + 1)) [fn, x]
      (consume S .colon >>= fun _ => domainPart S (expression S n) (typeExpr S n) fn x) :=
  (leads_function hf).trans (leads_consume hx (by decide) _)

theorem leads_domain (hf : fn.kind = .kwFun) (hx : x.kind = .identifier) (h₁ : c₁.kind = .colon) :
    Leads (expression S (n + 1)) [fn, x, c₁] (domainPart S (expression S n) (typeExpr S n) fn x) :=
  (leads_param hf hx).trans (leads_consume h₁ (by decide) _)

theorem leads_codomain (hfn : fn.kind = .kwFun) (hx : x.kind = .identifier) (h₁ : c₁.kind = .colon)
    (hp : Completes S .type (typeExpr S n) ps a f) (hf : .colon ∉ f) (h₂ : c₂.kind = .colon) :
    Leads (expression S (n + 1)) (fn :: x :: c₁ :: ps ++ [c₂])
      (codomainPart S (expression S n) (typeExpr S n) fn x a) :=
  (leads_domain hfn hx h₁).trans (hp.leads h₂ hf (by decide) _)

theorem leads_body (hfn : fn.kind = .kwFun) (hx : x.kind = .identifier) (h₁ : c₁.kind = .colon)
    (hp : Completes S .type (typeExpr S n) ps a f) (hf : .colon ∉ f) (h₂ : c₂.kind = .colon)
    (hr : Completes S .type (typeExpr S n) rs b g) (hg : .kwIs ∉ g) (his : is.kind = .kwIs) :
    Leads (expression S (n + 1)) (fn :: x :: c₁ :: ps ++ c₂ :: rs ++ [is])
      (bodyPart (expression S n) fn x a b) := by
  simpa using (leads_codomain hfn hx h₁ hp hf h₂).trans (hr.leads his hg (by decide) _)

theorem leads_group (hl : l.kind = .leftParen) : Leads (term S nested) [l] (closedPart S nested) := by
  intro j more g
  have hk : ((⟨j, [l] ++ more, g⟩ : State).current S).kind = .leftParen := hl
  unfold term
  rw [peek_bind, hk]
  exact leads_advance (by simp [hl]) _ j more g

theorem leads_typeGroup (hl : l.kind = .leftParen) : Leads (atomicType S nested) [l] (closedPart S nested) := by
  intro j more g
  have hk : ((⟨j, [l] ++ more, g⟩ : State).current S).kind = .leftParen := hl
  unfold atomicType
  rw [peek_bind, hk]
  exact leads_advance (by simp [hl]) _ j more g

theorem leads_right {op : CompareOp} (hl : Completes S .sum (sum S nested) ls a operandFollow)
    (ho : compareOp? o.kind = some op) : Leads (comparison S nested) (ls ++ [o]) (rightPart S nested op a) := by
  intro j more g
  have hne : o.kind ∉ operandFollow ∧ o.kind ≠ .finish := by
    generalize o.kind = k at ho
    cases k <;> cases ho <;> decide
  obtain ⟨g', h', -⟩ := hl j (o :: more) g hne.1
  have hk : ((⟨j + ls.length, o :: more, g'⟩ : State).current S).kind = o.kind := rfl
  refine ⟨g', ?_⟩
  unfold comparison
  rw [List.append_assoc, List.singleton_append, bind_ok h', peek_bind, hk, ho, List.length_append,
    List.length_singleton, ← Nat.add_assoc]
  exact bind_ok (advance_at hne.2)

theorem leads_result (hp : Completes S .atomicType (atomicType S nested) ps a ∅) (ho : o.kind = .arrow) :
    Leads (typeTier S nested) (ps ++ [o]) (nested >>= fun r => pure (.arrow a r (a.mark.cover r.mark))) := by
  intro j more g
  obtain ⟨g', h', -⟩ := hp j (o :: more) g (by simp)
  have hk : ((⟨j + ps.length, o :: more, g'⟩ : State).current S).kind = .arrow := ho
  refine ⟨g', ?_⟩
  unfold typeTier
  rw [List.append_assoc, List.singleton_append, bind_ok h', peek_bind, if_pos hk, List.length_append,
    List.length_singleton, ← Nat.add_assoc]
  exact bind_ok (advance_at (by simp [ho]))

end Leads

/-! ## Parts that are read to their end -/

section Completes

variable {t : Token} {l : Marked} {rs : List Token}

theorem rightPart_completes {op : CompareOp} (hr : Completes S .sum (sum S nested) rs u operandFollow) :
    Completes S .comparison (rightPart S nested op l) rs (.compare op l u (l.mark.cover u.mark)) operandFollow := by
  intro i more g hk
  obtain ⟨g', h', -⟩ := hr i more g hk
  exact ⟨operandFollow, bind_ok h', fun _ => rfl⟩

theorem comparison_completes (h : Completes S .sum (sum S nested) ts u operandFollow) :
    Completes S .comparison (comparison S nested) ts u (operandFollow ∪ Hint.comparisons) := by
  intro i more g hk
  rw [KindSet.mem_union, not_or] at hk
  obtain ⟨g', h', -⟩ := h i more g hk.1
  have hn : compareOp? ((⟨i + ts.length, more, g'⟩ : State).current S).kind = none := compareOp?_eq_none.mpr hk.2
  refine ⟨_, ?_, fun _ => rfl⟩
  unfold comparison
  rw [bind_ok h', peek_bind, hn]
  rfl

theorem typeTier_completes (h : Completes S .atomicType (atomicType S nested) ts u ∅) :
    Completes S .type (typeTier S nested) ts u (.single .arrow) := by
  intro i more g hk
  obtain ⟨g', h', -⟩ := h i more g (by simp)
  rw [KindSet.mem_single] at hk
  have hn : ((⟨i + ts.length, more, g'⟩ : State).current S).kind ≠ .arrow := hk
  refine ⟨_, ?_, fun _ => rfl⟩
  unfold typeTier
  rw [bind_ok h', peek_bind, if_neg hn]
  rfl

/-- A construct of one token. -/
theorem completes_token {p : Production Marked} (hc : remembers c = false)
    (h : ∀ i more g, p ⟨i, t :: more, g⟩ = .ok u ⟨i + 1, more, g⟩) : Completes S c p [t] u f :=
  fun i more g _ => ⟨g, h i more g, by simp [hc]⟩

theorem integer_completes {v : Nat} (hk : t.kind = .integer) (hv : Literal.IsNumber t.lexeme.toList v) :
    Completes S .term (term S nested) [t] (.literal (.number v) "integer" (.point t.loc)) ∅ := by
  refine completes_token rfl fun i more g => ?_
  have hk' : ((⟨i, t :: more, g⟩ : State).current S).kind = .integer := hk
  unfold term
  rw [peek_bind, hk']
  exact bind_ok (literal_at (by simp [hk]) (Literal.integer_eq_ok_iff.mpr hv))

theorem boolean_completes {b : Bool} (h : t.kind = .kwTrue ∧ b = true ∨ t.kind = .kwFalse ∧ b = false) :
    Completes S .term (term S nested) [t] (.literal (.truth b) "boolean" (.point t.loc)) ∅ := by
  refine completes_token rfl fun i more g => ?_
  have hb : Literal.boolean t i = .ok b := by
    rcases h with ⟨hk, rfl⟩ | ⟨hk, rfl⟩ <;> simp [Literal.boolean, hk]
  have hk' : ((⟨i, t :: more, g⟩ : State).current S).kind = t.kind := rfl
  unfold term
  rw [peek_bind, hk']
  rcases h with ⟨hk, rfl⟩ | ⟨hk, rfl⟩
  · rw [hk]
    exact bind_ok (literal_at (by simp [hk]) hb)
  · rw [hk]
    exact bind_ok (literal_at (by simp [hk]) hb)

theorem var_completes (hk : t.kind = .identifier) :
    Completes S .term (term S nested) [t] (.var t.lexeme (.point t.loc)) ∅ := by
  refine completes_token rfl fun i more g => ?_
  have hk' : ((⟨i, t :: more, g⟩ : State).current S).kind = .identifier := hk
  unfold term
  rw [peek_bind, hk']
  exact bind_ok (advance_at (by simp [hk]))

theorem atomicType_completes
    (h : t.kind = .kwInt ∧ u = .int (.point t.loc) ∨ t.kind = .kwBool ∧ u = .bool (.point t.loc)) :
    Completes S .atomicType (atomicType S nested) [t] u ∅ := by
  refine completes_token rfl fun i more g => ?_
  have hk' : ((⟨i, t :: more, g⟩ : State).current S).kind = t.kind := rfl
  unfold atomicType
  rw [peek_bind, hk']
  rcases h with ⟨hk, rfl⟩ | ⟨hk, rfl⟩
  · rw [hk]
    exact bind_ok (advance_at (by simp [hk]))
  · rw [hk]
    exact bind_ok (advance_at (by simp [hk]))

end Completes

/-! ## Tokens that are refused -/

theorem refuse_fails {p : Production Marked} {expected : KindSet}
    (h : ∀ s, (s.current S).kind ∉ expected → p s = refuse S expected s) : Fails S p [] (.refused expected) := by
  intro i more g e he
  obtain ⟨hk, rfl⟩ := Raises.refused (s := ⟨i, more, g⟩) he
  exact ⟨_, h ⟨i, more, g⟩ hk⟩

theorem consume_fails {F : Token → Production Marked} : Fails S (consume S k >>= F) [] (.refused (.single k)) := by
  intro i more g e he
  obtain ⟨hk, rfl⟩ := Raises.refused (s := ⟨i, more, g⟩) he
  exact ⟨_, bind_error (consume_refuses (by simpa using hk))⟩

theorem number_fails {nested : Production Marked} : Fails S (term S nested) [] .badNumber := by
  intro i more g e he
  cases he with
  | badNumber hk hv =>
    have hk' : ((⟨i, more, g⟩ : State).current S).kind = .integer := hk
    refine ⟨State.next ⟨i, more, g⟩, ?_⟩
    show term S nested ⟨i, more, g⟩ = _
    unfold term
    rw [peek_bind, hk']
    refine bind_error ?_
    have hv' : Literal.integer ((⟨i, more, g⟩ : State).current S) (i : Int) = .error e := hv
    simp [literal, hv']

end LambdaSyntax.Parse
