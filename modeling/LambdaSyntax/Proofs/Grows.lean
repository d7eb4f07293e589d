/-
  LambdaSyntax.Proofs.Grows — which kinds can stand next.

  `Makes c n ts`: the tokens make a construct of tier `c` with `n` levels. `Grows c ts k`: behind
  `ts` a token of kind `k` may stand, and the whole can still become a construct, at some
  number of levels. What is left open can always be closed again (`Opens.makes`), so a kind
  that lets an inner construct grow lets the outer one grow too.

  The kinds that a production reports are exactly those: `Reads.grows_iff` for the kinds that
  extend what was read, `Stops.grows_iff` for those it was refused over. That no kind is left
  out is seen by running the production on the longer tokens: it would have stopped before.
-/

import LambdaSyntax.Proofs.Replay

namespace LambdaSyntax.Parse

open Grammar

/-! ## Constructs, whatever their tree -/

def Makes (c : Tier) (n : Nat) (ts : List Token) : Prop := ∃ t, Derives c n ts t

section Makes

variable {i th el fn x c₁ c₂ is o l r : Token} {as bs cs ts : List Token} {c : Tier} {n m : Nat}

theorem Reads.makes {u : Marked} {f : KindSet} (h : Reads c n ts u f) : Makes c n ts := ⟨_, h.derives⟩

theorem Makes.raise (h : Makes c n ts) (hm : n ≤ m) : Makes c m ts := by
  obtain ⟨t, h⟩ := h
  exact ⟨t, raise_derives h hm⟩

theorem Makes.cond (hi : i.kind = .kwIf) (ha : Makes .expression n as) (hth : th.kind = .kwThen)
    (hb : Makes .expression n bs) (hel : el.kind = .kwElse) (hc : Makes .expression n cs) :
    Makes .expression (n + 1) (i :: as ++ th :: bs ++ el :: cs) := by
  obtain ⟨a, ha⟩ := ha
  obtain ⟨b, hb⟩ := hb
  obtain ⟨c, hc⟩ := hc
  exact ⟨_, .cond hi ha hth hb hel hc⟩

theorem Makes.func (hf : fn.kind = .kwFun) (hx : x.kind = .identifier) (h₁ : c₁.kind = .colon)
    (ha : Makes .type n as) (h₂ : c₂.kind = .colon) (hb : Makes .type n bs) (his : is.kind = .kwIs)
    (hc : Makes .expression n cs) : Makes .expression (n + 1) (fn :: x :: c₁ :: as ++ c₂ :: bs ++ is :: cs) := by
  obtain ⟨a, ha⟩ := ha
  obtain ⟨b, hb⟩ := hb
  obtain ⟨c, hc⟩ := hc
  exact ⟨_, .func hf hx h₁ ha h₂ hb his hc⟩

theorem Makes.comparison (h : Makes .comparison n ts) : Makes .expression (n + 1) ts := by
  obtain ⟨t, h⟩ := h
  exact ⟨t, .comparison h⟩

theorem Makes.compare {op : CompareOp} (ha : Makes .sum n as) (ho : compareOp? o.kind = some op)
    (hb : Makes .sum n bs) : Makes .comparison n (as ++ o :: bs) := by
  obtain ⟨a, ha⟩ := ha
  obtain ⟨b, hb⟩ := hb
  exact ⟨_, .compare ha (compareOp?_eq_some.mp ho) hb⟩

theorem Makes.sum (h : Makes .sum n ts) : Makes .comparison n ts := by
  obtain ⟨t, h⟩ := h
  exact ⟨t, .sum h⟩

theorem Makes.add {op : ArithOp} (ha : Makes .sum n as) (ho : sumOp? o.kind = some op) (hb : Makes .factor n bs) :
    Makes .sum n (as ++ o :: bs) := by
  obtain ⟨a, ha⟩ := ha
  obtain ⟨b, hb⟩ := hb
  exact ⟨_, .add ha (sumOp?_eq_some.mp ho) hb⟩

theorem Makes.factor (h : Makes .factor n ts) : Makes .sum n ts := by
  obtain ⟨t, h⟩ := h
  exact ⟨t, .factor h⟩

theorem Makes.mul {op : ArithOp} (ha : Makes .factor n as) (ho : factorOp? o.kind = some op)
    (hb : Makes .application n bs) : Makes .factor n (as ++ o :: bs) := by
  obtain ⟨a, ha⟩ := ha
  obtain ⟨b, hb⟩ := hb
  exact ⟨_, .mul ha (factorOp?_eq_some.mp ho) hb⟩

theorem Makes.application (h : Makes .application n ts) : Makes .factor n ts := by
  obtain ⟨t, h⟩ := h
  exact ⟨t, .application h⟩

theorem Makes.apply (ha : Makes .application n as) (hb : Makes .term n bs) : Makes .application n (as ++ bs) := by
  obtain ⟨a, ha⟩ := ha
  obtain ⟨b, hb⟩ := hb
  exact ⟨_, .apply ha hb⟩

theorem Makes.term (h : Makes .term n ts) : Makes .application n ts := by
  obtain ⟨t, h⟩ := h
  exact ⟨t, .term h⟩

theorem Makes.group (hl : l.kind = .leftParen) (h : Makes .expression n ts) (hr : r.kind = .rightParen) :
    Makes .term n (l :: ts ++ [r]) := by
  obtain ⟨t, h⟩ := h
  exact ⟨t, .group hl h hr⟩

theorem Makes.arrow (ha : Makes .atomicType n as) (ho : o.kind = .arrow) (hb : Makes .type n bs) :
    Makes .type (n + 1) (as ++ o :: bs) := by
  obtain ⟨a, ha⟩ := ha
  obtain ⟨b, hb⟩ := hb
  exact ⟨_, .arrow ha ho hb⟩

theorem Makes.atomicType (h : Makes .atomicType n ts) : Makes .type (n + 1) ts := by
  obtain ⟨t, h⟩ := h
  exact ⟨t, .atomicType h⟩

theorem Makes.typeGroup (hl : l.kind = .leftParen) (h : Makes .type n ts) (hr : r.kind = .rightParen) :
    Makes .atomicType n (l :: ts ++ [r]) := by
  obtain ⟨t, h⟩ := h
  exact ⟨t, .typeGroup hl h hr⟩

/-- An expression or a type is a level of its own. -/
theorem Makes.level_pos (h : Makes c n ts) (hc : c = .expression ∨ c = .type) : ∃ m, n = m + 1 := by
  obtain ⟨t, h⟩ := h
  cases h with
  | cond | func | comparison | arrow | atomicType => exact ⟨_, rfl⟩
  | _ => simp at hc

theorem Makes.passable (h : Makes c n ts) : ∀ t ∈ ts, Passable t := by
  obtain ⟨t, h⟩ := h
  obtain ⟨u, f, hu, -⟩ := reads_of_derives h
  exact hu.passable

end Makes

/-! ## Tokens to go on with -/

/-- A token of a kind; an integer has a value. -/
def sample (k : Kind) : Token := ⟨k, "0", .none, ⟨"", 1, 1, 0⟩⟩

@[simp] theorem sample_kind (k : Kind) : (sample k).kind = k := rfl

theorem isNumber_zero : Literal.IsNumber "0".toList 0 := ⟨by decide, by decide, by decide⟩

theorem passable_sample {k : Kind} (h : k ≠ .finish) : Passable (sample k) := ⟨h, fun _ => ⟨0, isNumber_zero⟩⟩

section Fillers

variable {n : Nat}

theorem makes_term {k : Kind} (hk : k ∈ termStart) (hp : k ≠ .leftParen) : Makes .term n [sample k] := by
  cases k with
  | integer => exact ⟨_, .integer rfl isNumber_zero⟩
  | kwTrue => exact ⟨_, .trueWord rfl⟩
  | kwFalse => exact ⟨_, .falseWord rfl⟩
  | identifier => exact ⟨_, .var rfl⟩
  | leftParen => exact absurd rfl hp
  | _ => exact absurd hk (by decide)

theorem makes_application : Makes .application n [sample .identifier] := (makes_term (by decide) (by decide)).term

theorem makes_factor : Makes .factor n [sample .identifier] := makes_application.application

theorem makes_sum : Makes .sum n [sample .identifier] := makes_factor.factor

theorem makes_expression : Makes .expression (n + 1) [sample .identifier] := makes_sum.sum.comparison

theorem makes_atomicType : Makes .atomicType n [sample .kwInt] := ⟨_, .int rfl⟩

theorem makes_type : Makes .type (n + 1) [sample .kwInt] := makes_atomicType.atomicType

end Fillers

/-- What has begun and is complete so far can be completed around whatever fills the gap,
    and needs no more levels for it. -/
theorem Opens.makes {c d : Tier} {n m : Nat} {ts us : List Token} (h : Opens c n ts d m) (hu : Makes d m us) :
    ∃ ws, Makes c n (ts ++ us ++ ws) := by
  cases h with
  | condition hi =>
    obtain ⟨m, rfl⟩ := hu.level_pos (.inl rfl)
    exact ⟨_, by simpa using Makes.cond hi hu (sample_kind _) makes_expression (sample_kind _) makes_expression⟩
  | yes hi hc hth =>
    obtain ⟨m, rfl⟩ := hu.level_pos (.inl rfl)
    exact ⟨_, by simpa using Makes.cond hi hc.makes hth hu (sample_kind _) makes_expression⟩
  | no hi hc hth hy hel => exact ⟨[], by simpa using Makes.cond hi hc.makes hth hy.makes hel hu⟩
  | domain hf hx h₁ =>
    obtain ⟨m, rfl⟩ := hu.level_pos (.inr rfl)
    exact ⟨_, by simpa using Makes.func hf hx h₁ hu (sample_kind _) makes_type (sample_kind _) makes_expression⟩
  | codomain hf hx h₁ hp h₂ =>
    obtain ⟨m, rfl⟩ := hu.level_pos (.inr rfl)
    exact ⟨_, by simpa using Makes.func hf hx h₁ hp.makes h₂ hu (sample_kind _) makes_expression⟩
  | body hf hx h₁ hp h₂ hr his => exact ⟨[], by simpa using Makes.func hf hx h₁ hp.makes h₂ hr.makes his hu⟩
  | left => exact ⟨[], by simpa using hu.sum⟩
  | right hl ho => exact ⟨[], by simpa using hl.makes.compare ho hu⟩
  | summand => exact ⟨[], by simpa using hu.factor⟩
  | nextSummand hl ho => exact ⟨[], by simpa using hl.makes.add ho hu⟩
  | multiplicand => exact ⟨[], by simpa using hu.application⟩
  | nextMultiplicand hl ho => exact ⟨[], by simpa using hl.makes.mul ho hu⟩
  | function => exact ⟨[], by simpa using hu.term⟩
  | group hl => exact ⟨[sample .rightParen], Makes.group hl hu (sample_kind _)⟩
  | atomicType => exact ⟨[], by simpa using hu.atomicType⟩
  | result hp ho => exact ⟨[], by simpa using hp.makes.arrow ho hu⟩
  | typeGroup hl => exact ⟨[sample .rightParen], Makes.typeGroup hl hu (sample_kind _)⟩

theorem Takes.makes {c d : Tier} {n m : Nat} {ts us : List Token} (h : Takes c n ts d m) (hu : Makes d m us) :
    Makes c n (ts ++ us) := by
  cases h with
  | comparison => exact hu.comparison
  | argument hf => exact hf.makes.apply hu

/-! ## What a construct can grow by -/

def Grows (c : Tier) (ts : List Token) (k : Kind) : Prop := ∃ n us, Makes c n (ts ++ sample k :: us)

section Grows

variable {c d : Tier} {n m : Nat} {ts us : List Token} {u : Marked} {f expected : KindSet} {k : Kind}

theorem Grows.not_finish (h : Grows c ts k) : k ≠ .finish := by
  obtain ⟨n, us, h⟩ := h
  exact (h.passable (sample k) (by simp)).1

theorem Grows.opens (h : Grows d us k) (ho : Opens c n ts d m) : Grows c (ts ++ us) k := by
  obtain ⟨j, vs, h⟩ := h
  obtain ⟨ws, hw⟩ := (ho.raise j).makes (h.raise (Nat.le_add_left j m))
  exact ⟨n + j, vs ++ ws, by simpa using hw⟩

theorem Grows.takes (h : Grows d us k) (ho : Takes c n ts d m) : Grows c (ts ++ us) k := by
  obtain ⟨j, vs, h⟩ := h
  have hm := (ho.raise j).makes (h.raise (Nat.le_add_left j m))
  exact ⟨n + j, vs, by simpa using hm⟩

theorem grows_term (hk : k ∈ termStart) : Grows .term [] k := by
  by_cases hp : k = .leftParen
  · subst hp
    exact ⟨1, _, Makes.group (l := sample .leftParen) (r := sample .rightParen) rfl makes_expression rfl⟩
  · exact ⟨0, [], makes_term hk hp⟩

theorem grows_application (hk : k ∈ termStart) : Grows .application [] k := (grows_term hk).opens .function (n := 0)

theorem grows_factor (hk : k ∈ termStart) : Grows .factor [] k := (grows_application hk).opens .multiplicand (n := 0)

theorem grows_comparison (hk : k ∈ termStart) : Grows .comparison [] k :=
  ((grows_factor hk).opens .summand (n := 0)).opens .left (n := 0)

theorem grows_expression (hk : k ∈ expressionStart) : Grows .expression [] k := by
  rcases mem_expressionStart.mp hk with hk | rfl | rfl
  · exact (grows_comparison hk).takes .comparison (n := 1)
  · exact ⟨2, _, Makes.cond (sample_kind _) makes_expression (sample_kind _) makes_expression (sample_kind _)
      makes_expression⟩
  · exact ⟨2, _, Makes.func (sample_kind _) (sample_kind _) (sample_kind _) makes_type (sample_kind _) makes_type
      (sample_kind _) makes_expression⟩

theorem grows_atomicType (hk : k ∈ typeStart) : Grows .atomicType [] k := by
  cases k with
  | kwInt => exact ⟨0, [], makes_atomicType⟩
  | kwBool => exact ⟨0, [], _, .bool rfl⟩
  | leftParen => exact ⟨1, _, Makes.typeGroup (l := sample .leftParen) (r := sample .rightParen) rfl makes_type rfl⟩
  | _ => exact absurd hk (by decide)

theorem grows_of_sumOp (h : Makes .sum n ts) {op : ArithOp} (hk : sumOp? k = some op) : Grows .sum ts k :=
  ⟨n, _, h.add (o := sample k) hk makes_factor⟩

theorem grows_of_factorOp (h : Makes .factor n ts) {op : ArithOp} (hk : factorOp? k = some op) : Grows .factor ts k :=
  ⟨n, _, h.mul (o := sample k) hk makes_application⟩

theorem grows_of_compareOp (h : Makes .sum n ts) {op : CompareOp} (hk : compareOp? k = some op) :
    Grows .comparison ts k :=
  ⟨n, _, h.compare (o := sample k) hk makes_sum⟩

theorem grows_of_term (h : Makes .application n ts) (hk : k ∈ termStart) : Grows .application ts k := by
  obtain ⟨m, us, hu⟩ := grows_term hk
  exact ⟨max n m, us, (h.raise (Nat.le_max_left n m)).apply (hu.raise (Nat.le_max_right n m))⟩

/-- Whatever extends what was read can stand behind it. -/
theorem Reads.grows (h : Reads c n ts u f) (hk : k ∈ f) : Grows c ts k := by
  induction h with
  | cond hi hc hth hy hel hz _ _ ihz =>
    have ho := Opens.no hi hc hth hy hel
    rw [List.append_cons]
    exact (ihz hk).opens ho
  | func hf hx h₁ hp h₂ hr his hb _ _ ihb =>
    have ho := Opens.body hf hx h₁ hp h₂ hr his
    rw [List.append_cons]
    exact (ihb hk).opens ho
  | comparison h ih => exact (ih hk).takes .comparison (n := 1)
  | compare hl ho hr _ ihr =>
    rw [List.append_cons]
    exact (ihr hk).opens (.right hl ho)
  | @sum n ts u h ih =>
    rcases KindSet.mem_union.mp hk with hk | hk
    · exact (ih hk).opens (.left (n := n))
    · have hop : compareOp? k ≠ none := fun hn => compareOp?_eq_none.mp hn hk
      obtain ⟨op, hop⟩ := Option.ne_none_iff_exists'.mp hop
      exact grows_of_compareOp h.makes hop
  | add hl ho hr ihl ihr =>
    rcases joins_sum.mem.mp hk with hk | ⟨op, hop⟩
    · rw [List.append_cons]
      exact (ihr hk).opens (.nextSummand hl ho)
    · exact grows_of_sumOp (hl.makes.add ho hr.makes) hop
  | @factor n ts u h ih =>
    rcases joins_sum.mem.mp hk with hk | ⟨op, hop⟩
    · exact (ih hk).opens (.summand (n := n))
    · exact grows_of_sumOp h.makes.factor hop
  | mul hl ho hr ihl ihr =>
    rcases joins_factor.mem.mp hk with hk | ⟨op, hop⟩
    · rw [List.append_cons]
      exact (ihr hk).opens (.nextMultiplicand hl ho)
    · exact grows_of_factorOp (hl.makes.mul ho hr.makes) hop
  | @application n ts u h ih =>
    rcases joins_factor.mem.mp hk with hk | ⟨op, hop⟩
    · exact (ih hk).opens (.multiplicand (n := n))
    · exact grows_of_factorOp h.makes.application hop
  | apply hf ha _ _ => exact grows_of_term (hf.makes.apply ha.makes) hk
  | term h _ => exact grows_of_term h.makes.term hk
  | arrow hp ho hr _ ihr =>
    rw [List.append_cons]
    exact (ihr hk).opens (.result hp ho)
  | atomicType h _ =>
    obtain rfl := KindSet.mem_single.mp hk
    exact ⟨_, _, (h.makes.raise (Nat.le_succ _)).arrow (o := sample .arrow) rfl makes_type⟩
  | _ => exact absurd hk KindSet.not_mem_empty

theorem Halts.grows (h : Halts c n ts (.refused expected)) (hk : k ∈ expected) : Grows c ts k := by
  cases h with
  | expression => exact grows_expression hk
  | @kwThen n _ _ _ _ hi hc =>
    rcases KindSet.mem_union.mp hk with hk | hk
    · exact (hc.grows hk).opens (.condition hi (n := n))
    · obtain rfl := KindSet.mem_single.mp hk
      have hm := Makes.cond hi (hc.makes.raise (Nat.le_succ _)) (sample_kind _) makes_expression (sample_kind _)
        makes_expression
      exact ⟨_, _, by simpa using hm⟩
  | kwElse hi hc hth hy =>
    rcases KindSet.mem_union.mp hk with hk | hk
    · rw [List.append_cons]
      exact (hy.grows hk).opens (.yes hi hc hth)
    · obtain rfl := KindSet.mem_single.mp hk
      have hm := Makes.cond hi (hc.makes.raise (Nat.le_succ _)) hth (hy.makes.raise (Nat.le_succ _)) (sample_kind _)
        makes_expression
      exact ⟨_, _, by simpa using hm⟩
  | param hf =>
    obtain rfl := KindSet.mem_single.mp hk
    have hm := Makes.func hf (sample_kind _) (sample_kind _) makes_type (sample_kind _) makes_type (sample_kind _)
      (makes_expression (n := 0))
    exact ⟨2, _, by simpa using hm⟩
  | colon hf hx =>
    obtain rfl := KindSet.mem_single.mp hk
    have hm := Makes.func hf hx (sample_kind _) makes_type (sample_kind _) makes_type (sample_kind _)
      (makes_expression (n := 0))
    exact ⟨2, _, by simpa using hm⟩
  | @nextColon n _ _ _ _ _ _ hf hx h₁ hp =>
    rcases KindSet.mem_union.mp hk with hk | hk
    · exact (hp.grows hk).opens (.domain hf hx h₁ (n := n))
    · obtain rfl := KindSet.mem_single.mp hk
      have hm := Makes.func hf hx h₁ (hp.makes.raise (Nat.le_succ _)) (sample_kind _) makes_type (sample_kind _)
        makes_expression
      exact ⟨_, _, by simpa using hm⟩
  | kwIs hf hx h₁ hp h₂ hr =>
    rcases KindSet.mem_union.mp hk with hk | hk
    · rw [List.append_cons]
      exact (hr.grows hk).opens (.codomain hf hx h₁ hp h₂)
    · obtain rfl := KindSet.mem_single.mp hk
      have hm := Makes.func hf hx h₁ (hp.makes.raise (Nat.le_succ _)) h₂ (hr.makes.raise (Nat.le_succ _))
        (sample_kind _) makes_expression
      exact ⟨_, _, by simpa using hm⟩
  | term => exact grows_term hk
  | rightParen hl he =>
    rcases KindSet.mem_union.mp hk with hk | hk
    · exact (he.grows hk).opens (.group hl (n := n))
    · obtain rfl := KindSet.mem_single.mp hk
      exact ⟨_, [], Makes.group hl he.makes (sample_kind _)⟩
  | atomicType => exact grows_atomicType hk
  | typeRightParen hl ht =>
    rcases KindSet.mem_union.mp hk with hk | hk
    · exact (ht.grows hk).opens (.typeGroup hl (n := n))
    · obtain rfl := KindSet.mem_single.mp hk
      exact ⟨_, [], Makes.typeGroup hl ht.makes (sample_kind _)⟩

theorem Stops.grows {r : Reason} (h : Stops c n ts r) (hr : r = .refused expected) (hk : k ∈ expected) :
    Grows c ts k := by
  induction h with
  | halt h =>
    subst hr
    exact h.grows hk
  | inside ho _ ih => exact (ih hr).opens ho
  | taken ht _ _ ih => exact (ih hr).takes ht

/-- A token is never refused where nothing else would have done. -/
theorem Stops.exists_mem {r : Reason} (h : Stops c n ts r) (hr : r = .refused expected) : ∃ k, k ∈ expected := by
  induction h with
  | halt h =>
    subst hr
    cases h with
    | expression | term => exact ⟨.integer, by decide⟩
    | atomicType => exact ⟨.kwInt, by decide⟩
    | param _ | colon _ _ => exact ⟨_, KindSet.mem_single.mpr rfl⟩
    | _ => exact ⟨_, KindSet.mem_union.mpr (.inr (KindSet.mem_single.mpr rfl))⟩
  | inside _ _ ih => exact ih hr
  | taken _ _ _ ih => exact ih hr

/-! ## Nothing else can stand there -/

/-- A setting to try things in. -/
def trial : Setting := ⟨sample .finish, 0⟩

theorem trial_run (h : Makes c n us) :
    ∃ u s, tierProduction trial n c ⟨0, us, ∅⟩ = .ok u s ∧ s.index = us.length := by
  obtain ⟨t, h⟩ := h
  obtain ⟨u, f, hu, -⟩ := reads_of_derives h
  obtain ⟨g, hrun, -⟩ := reads_run (S := trial) rfl hu 0 [] ∅ (hu.closer (by decide))
  rw [List.append_nil] at hrun
  exact ⟨u, _, hrun, Nat.zero_add _⟩

theorem Stops.mem_of_makes (h : Stops c n ts (.refused expected)) (hm : Makes c m (ts ++ us)) :
    (us.headD (sample .finish)).kind ∈ expected := by
  refine Decidable.not_not.mp fun hk => ?_
  obtain ⟨u, s, hrun, -⟩ := trial_run (hm.raise (Nat.le_add_left m n))
  have hr := raises_refusal (S := trial) (s := ⟨0 + ts.length, us, ∅⟩) hk
  obtain ⟨s', hs⟩ := stops_run (S := trial) rfl (h.raise (by simp) m) 0 us ∅ _ hr
  rw [hs] at hrun
  cases hrun

theorem Reads.mem_of_makes {t : Token} (h : Reads c n ts u f) (hm : Makes c m (ts ++ t :: us)) : t.kind ∈ f := by
  refine Decidable.not_not.mp fun hk => ?_
  obtain ⟨v, s, hrun, hs⟩ := trial_run (hm.raise (Nat.le_add_left m n))
  obtain ⟨g, hrun', -⟩ := reads_run (S := trial) rfl (h.raise (Nat.le_add_right n m)) 0 (t :: us) ∅ hk
  rw [hrun'] at hrun
  cases hrun
  simp at hs

theorem Reads.grows_iff (h : Reads c n ts u f) : k ∈ f ↔ Grows c ts k := by
  constructor
  · exact h.grows
  · intro hg
    obtain ⟨m, us, hm⟩ := hg
    exact h.mem_of_makes hm

theorem Stops.grows_iff (h : Stops c n ts (.refused expected)) : k ∈ expected ↔ Grows c ts k := by
  constructor
  · exact h.grows rfl
  · intro hg
    obtain ⟨m, us, hm⟩ := hg
    exact h.mem_of_makes hm

theorem Stops.not_makes (h : Stops c n ts (.refused expected)) : ¬ Makes c m ts := by
  intro hm
  have hk : Kind.finish ∈ expected := by
    rw [← List.append_nil ts] at hm
    exact h.mem_of_makes hm
  exact (h.grows rfl hk).not_finish rfl

end Grows

end LambdaSyntax.Parse
