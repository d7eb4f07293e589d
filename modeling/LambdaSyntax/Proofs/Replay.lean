/-
  LambdaSyntax.Proofs.Replay — what `Reads` and `Stops` describe is a run.

  `reads_run` and `stops_run` are the converse of `tierProduction_explained`: wherever the
  tokens of a construct stand, its production reads them, and wherever it may stop, it does.
  A repetition is left in the middle of what it joins, so the induction over `Reads` speaks
  of what the tier still has to do there (`Replayed`).
-/

import LambdaSyntax.Proofs.Leads

namespace LambdaSyntax.Parse

variable {S : Setting} {n m : Nat} {c d : Tier} {ts us : List Token} {u : Marked} {f : KindSet} {r : Reason} {k : Kind}

/-! ## Everything that `Reads` describes -/

/-- The kinds that may extend some construct or other. -/
def followers : KindSet := operandFollow ∪ Hint.comparisons ∪ .single .arrow

theorem Reads.follow_sub {t : List Token} (h : Reads c n t u f) : k ∈ f → k ∈ followers := by
  induction h with
  | cond _ _ _ _ _ _ _ _ ih => exact ih
  | func _ _ _ _ _ _ _ _ _ _ ih => exact ih
  | comparison _ ih => exact ih
  | _ => cases k <;> decide

theorem Reads.closer (h : Reads c n ts u f) (hk : k ∉ followers) : k ∉ f := fun h' => hk (h.follow_sub h')

theorem Reads.starts (h : Reads c n ts u f) (he : c ≠ .expression) (ht : c ≠ .type) (ha : c ≠ .atomicType) :
    ∃ t us, ts = t :: us ∧ t.kind ∈ termStart := by
  induction h with
  | sum _ ih | factor _ ih | application _ ih | term _ ih => exact ih (by simp) (by simp) (by simp)
  | compare _ _ _ ih | add _ _ _ ih | mul _ _ _ ih | apply _ _ ih =>
    obtain ⟨t, us, rfl, hk⟩ := ih (by simp) (by simp) (by simp)
    exact ⟨t, _, rfl, hk⟩
  | integer hk | trueWord hk | falseWord hk | var hk => exact ⟨_, _, rfl, by rw [hk]; decide⟩
  | group hk => exact ⟨_, _, rfl, by rw [hk]; decide⟩
  | _ => contradiction

/-- A tier that repeats is left before it looks for more; the others are left at their end. -/
def Replayed (S : Setting) (n : Nat) (ts : List Token) (u : Marked) (f : KindSet) : Tier → Prop
  | .sum => Continues S (sum S (expression S n)) ts (operandsFrom S sumOp? (factor S (expression S n)) u) factorFollow
  | .factor =>
    Continues S (factor S (expression S n)) ts (operandsFrom S factorOp? (application S (expression S n)) u) termStart
  | .application => Continues S (application S (expression S n)) ts (argumentsFrom S (expression S n) u) ∅
  | c => Completes S c (tierProduction S n c) ts u f

theorem Leads.completes_pure {p : Production Marked} (h : Leads p ts (pure u)) (hc : remembers c = false) :
    Completes S c p ts u f := by
  intro i more g _
  obtain ⟨g', h'⟩ := h i more g
  exact ⟨g', h', by simp [hc]⟩

theorem Replayed.completes (h : Replayed S n ts u f c) (hf : ∀ g, tierFollow? c = some g → f = g) :
    Completes S c (tierProduction S n c) ts u f := by
  cases c with
  | sum =>
    obtain rfl := hf _ rfl
    exact joins_sum.completes h
  | factor =>
    obtain rfl := hf _ rfl
    exact joins_factor.completes h
  | application =>
    obtain rfl := hf _ rfl
    intro i more g hk
    obtain ⟨g', h'⟩ := h i more g (by simp)
    have hk' : ((⟨i + ts.length, more, g'⟩ : State).current S).kind ∉ termStart := hk
    exact ⟨g', h'.trans (arguments_of_not_mem hk' more), by simp [remembers]⟩
  | _ => exact h

section

variable (hS : S.closing.kind = .finish)

include hS

theorem term_consumes : Consumes (term S (expression S n)) := (tierProduction_explained hS n .term).consumes

theorem application_consumes : Consumes (application S (expression S n)) :=
  (tierProduction_explained hS n .application).consumes

theorem factor_consumes : Consumes (factor S (expression S n)) := (tierProduction_explained hS n .factor).consumes

theorem reads_replayed (h : Reads c n ts u f) : Replayed S n ts u f c := by
  -- a part that is not the first operand of a repetition is read to its end
  have whole : ∀ {c n ts u f}, Reads c n ts u f → Replayed S n ts u f c →
      Completes S c (tierProduction S n c) ts u f := fun h hr => hr.completes fun _ hg => h.follow_eq hg
  induction h with
  | cond hi hc hth hy hel hz ihc ihy ihz =>
    have hl := leads_no hi (whole hc ihc) (hc.closer (by decide)) hth (whole hy ihy) (hy.closer (by decide)) hel
    rw [List.append_cons]
    exact hl.completes ((whole hz ihz).map _)
  | func hfn hx h₁ hp h₂ hr his hb ihp ihr ihb =>
    have hl := leads_body hfn hx h₁ (whole hp ihp) (hp.closer (by decide)) h₂ (whole hr ihr)
      (hr.closer (by decide)) his
    rw [List.append_cons]
    exact hl.completes ((whole hb ihb).map _)
  | comparison h ih =>
    intro i more g hk
    obtain ⟨t, us, rfl, ht⟩ := h.starts (by simp) (by simp) (by simp)
    obtain ⟨g', h', hg⟩ := ih i more g hk
    exact ⟨g', (expression_of_mem (s := ⟨i, t :: us ++ more, g⟩) ht).trans h', fun _ => hg rfl⟩
  | compare hl ho hr ihl ihr =>
    have hlead := leads_right (whole hl ihl) ho
    rw [List.append_cons]
    exact hlead.completes (rightPart_completes (whole hr ihr))
  | sum h ih => exact comparison_completes (whole h ih)
  | add hl ho hr ihl ihr =>
    have hlead := joins_sum.leads (factor_consumes hS) hS ihl ho
    rw [List.append_cons]
    exact hlead.continues ((whole hr ihr).continues _)
  | factor h ih => exact (whole h ih).continues _
  | mul hl ho hr ihl ihr =>
    have hlead := joins_factor.leads (application_consumes hS) hS ihl ho
    rw [List.append_cons]
    exact hlead.continues ((whole hr ihr).continues _)
  | application h ih => exact (whole h ih).continues _
  | apply hf ha ihf iha =>
    intro i more g hk
    obtain ⟨t, us, rfl, ht⟩ := ha.starts (by simp) (by simp) (by simp)
    obtain ⟨g₁, h₁⟩ := ihf.applied (term_consumes hS) hS (t :: us ++ more) ht (i := i) (g := g)
    obtain ⟨g₂, h₂⟩ := (whole ha iha).continues _ _ more g₁ hk
    refine ⟨g₂, ?_⟩
    rw [List.append_assoc, List.length_append, ← Nat.add_assoc]
    exact h₁.trans h₂
  | term h ih => exact (whole h ih).continues _
  | integer hk hv => exact integer_completes hk hv
  | trueWord hk => exact boolean_completes (.inl ⟨hk, rfl⟩)
  | falseWord hk => exact boolean_completes (.inr ⟨hk, rfl⟩)
  | var hk => exact var_completes hk
  | group hl he hr ih =>
    have := (leads_group hl).trans ((whole he ih).leads hr (he.closer (by decide)) (by decide) _)
    exact this.completes_pure rfl
  | arrow hp ho hr ihp ihr =>
    rw [List.append_cons]
    exact (leads_result (whole hp ihp) ho).completes ((whole hr ihr).map _)
  | atomicType h ih => exact typeTier_completes (whole h ih)
  | int hk => exact atomicType_completes (.inl ⟨hk, rfl⟩)
  | bool hk => exact atomicType_completes (.inr ⟨hk, rfl⟩)
  | typeGroup hl ht hr ih =>
    have := (leads_typeGroup hl).trans ((whole ht ih).leads hr (ht.closer (by decide)) (by decide) _)
    exact this.completes_pure rfl

theorem reads_run (h : Reads c n ts u f) : Completes S c (tierProduction S n c) ts u f :=
  (reads_replayed hS h).completes fun _ hg => h.follow_eq hg

/-! ## Everything that `Stops` describes -/

theorem opens_leads (h : Opens c n ts d m) :
    ∃ F : Marked → Production Marked, Leads (tierProduction S n c) ts (tierProduction S m d >>= F) := by
  cases h with
  | condition hi => exact ⟨_, leads_condition hi⟩
  | yes hi hc hth => exact ⟨_, leads_yes hi (reads_run hS hc) (hc.closer (by decide)) hth⟩
  | no hi hc hth hy hel =>
    exact ⟨_, leads_no hi (reads_run hS hc) (hc.closer (by decide)) hth (reads_run hS hy) (hy.closer (by decide)) hel⟩
  | domain hfn hx h₁ => exact ⟨_, leads_domain hfn hx h₁⟩
  | codomain hfn hx h₁ hp h₂ => exact ⟨_, leads_codomain hfn hx h₁ (reads_run hS hp) (hp.closer (by decide)) h₂⟩
  | body hfn hx h₁ hp h₂ hr his =>
    exact ⟨_, leads_body hfn hx h₁ (reads_run hS hp) (hp.closer (by decide)) h₂ (reads_run hS hr)
      (hr.closer (by decide)) his⟩
  | left => exact ⟨_, .refl _⟩
  | right hl ho => exact ⟨_, leads_right (reads_run hS hl) ho⟩
  | summand => exact ⟨_, .refl _⟩
  | nextSummand hl ho => exact ⟨_, joins_sum.leads (factor_consumes hS) hS (reads_replayed hS hl) ho⟩
  | multiplicand => exact ⟨_, .refl _⟩
  | nextMultiplicand hl ho =>
    exact ⟨_, joins_factor.leads (application_consumes hS) hS (reads_replayed hS hl) ho⟩
  | function => exact ⟨_, .refl _⟩
  | group hl => exact ⟨_, leads_group hl⟩
  | atomicType => exact ⟨_, .refl _⟩
  | result hp ho => exact ⟨_, leads_result (reads_run hS hp) ho⟩
  | typeGroup hl => exact ⟨_, leads_typeGroup hl⟩

theorem takes_run (h : Takes c n ts d m) {i : Nat} {more : List Token} {g : KindSet}
    (hk : (more.headD S.closing).kind ∈ termStart) : ∃ (F : Marked → Production Marked) (g' : KindSet),
      tierProduction S n c ⟨i, ts ++ more, g⟩ = (tierProduction S m d >>= F) ⟨i + ts.length, more, g'⟩ := by
  cases h with
  | comparison =>
    refine ⟨pure, g, (expression_of_mem (s := ⟨i, more, g⟩) hk).trans ?_⟩
    rw [bind_pure]
    rfl
  | argument hf => exact ⟨_, (reads_replayed hS hf).applied (term_consumes hS) hS more hk⟩

theorem halts_fails (h : Halts c n ts r) : Fails S (tierProduction S n c) ts r := by
  cases h with
  | expressionLevel | typeLevel =>
    intro i more g e he
    cases he
    exact ⟨_, rfl⟩
  | expression =>
    refine refuse_fails fun s hk => ?_
    show expressionTier S _ _ s = _
    rw [mem_expressionStart, not_or, not_or] at hk
    unfold expressionTier
    rw [peek_bind, if_neg hk.2.1, if_neg hk.2.2, if_neg (by simp [mem_expressionStart, hk])]
  | kwThen hi hc => exact (leads_condition hi).fails ((reads_run hS hc).fails rfl _)
  | kwElse hi hc hth hy =>
    have hl := leads_yes hi (reads_run hS hc) (hc.closer (by decide)) hth
    have := hl.fails ((reads_run hS hy).fails rfl _)
    rw [List.append_cons]
    exact this
  | param hf => exact (leads_function hf).fails consume_fails
  | colon hf hx => exact (leads_param hf hx).fails consume_fails
  | nextColon hf hx h₁ hp => exact (leads_domain hf hx h₁).fails ((reads_run hS hp).fails rfl _)
  | kwIs hf hx h₁ hp h₂ hr =>
    have hl := leads_codomain hf hx h₁ (reads_run hS hp) (hp.closer (by decide)) h₂
    have := hl.fails ((reads_run hS hr).fails rfl _)
    rw [List.append_cons]
    exact this
  | term =>
    refine refuse_fails fun s hk => ?_
    show term S _ s = _
    unfold term
    rw [peek_bind]
    cases hs : (s.current S).kind with
    | integer | kwTrue | kwFalse | identifier | leftParen => exact absurd (by rw [hs]; decide) hk
    | _ => rfl
  | number => exact number_fails
  | rightParen hl he => exact (leads_group hl).fails ((reads_run hS he).fails rfl _)
  | atomicType =>
    refine refuse_fails fun s hk => ?_
    show atomicType S _ s = _
    unfold atomicType
    rw [peek_bind]
    cases hs : (s.current S).kind with
    | kwInt | kwBool | leftParen => exact absurd (by rw [hs]; decide) hk
    | _ => rfl
  | typeRightParen hl ht => exact (leads_typeGroup hl).fails ((reads_run hS ht).fails rfl _)

theorem stops_run (h : Stops c n ts r) : Fails S (tierProduction S n c) ts r := by
  induction h with
  | halt h => exact halts_fails hS h
  | inside ho _ ih =>
    obtain ⟨F, hF⟩ := opens_leads hS ho
    exact hF.fails (ih.bind F)
  | @taken c d n m ts us r hk _ hb ih =>
    intro i more g e he
    have hmem : ((us ++ more).headD S.closing).kind ∈ termStart := by
      cases us with
      | nil =>
        obtain rfl : r = .badNumber := hb
        cases he with
        | badNumber hint _ =>
          rw [List.nil_append, hint]
          decide
      | cons t us => exact hb
    obtain ⟨F, g', hF⟩ := takes_run hS hk (i := i) (g := g) hmem
    rw [List.length_append, ← Nat.add_assoc] at he
    obtain ⟨s, hs⟩ := ih.bind F (i + ts.length) more g' e he
    exact ⟨s, by rw [List.append_assoc, hF, hs]⟩

end

end LambdaSyntax.Parse
