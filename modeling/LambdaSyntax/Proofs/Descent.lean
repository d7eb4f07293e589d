/-
  LambdaSyntax.Proofs.Descent — every run of a production is one of those that `Reads` and
  `Stops` describe.

  A run that ends well has read a construct and stands at a token that does not extend it;
  an expression, a comparison or a type also leaves the kinds behind that would have
  (`Finishes`). A run that ends badly has stopped inside the construct, at the token and for
  the reason that its error names (`Faults`). `Explained` says both of a production, and
  `tierProduction_explained` says it of every tier at every number of levels.
-/

import LambdaSyntax.Parse.Session
import LambdaSyntax.Proofs.Production
import LambdaSyntax.Proofs.Stops

namespace LambdaSyntax.Parse

variable {S : Setting} {n m : Nat} {c d : Tier} {nested types : Production Marked} {s s₀ s' : State}
  {ts us : List Token} {e : SyntaxError}

def Finishes (S : Setting) (c : Tier) (n : Nat) (s₀ : State) (u : Marked) (s : State) : Prop :=
  ∃ ts f, Passed s₀ ts s ∧ Reads c n ts u f ∧ (s.current S).kind ∉ f ∧ (remembers c → s.follow = f)

def Faults (S : Setting) (c : Tier) (n : Nat) (s₀ : State) (e : SyntaxError) : Prop :=
  ∃ ts r s, Passed s₀ ts s ∧ Stops c n ts r ∧ Raises S (s.current S) s.index r e

def Explained (S : Setting) (c : Tier) (n : Nat) (p : Production Marked) : Prop :=
  ∀ s, Ends (Finishes S c n s) (fun e _ => Faults S c n s e) (p s)

/-! ## Faults of the parts are faults of the whole -/

theorem Faults.inside (h : Faults S d m s e) (ho : Opens c n ts d m) (hp : Passed s₀ ts s) :
    Faults S c n s₀ e := by
  obtain ⟨us, r, s', hp', hs, hr⟩ := h
  exact ⟨ts ++ us, r, s', hp.trans hp', .inside ho hs, hr⟩

theorem Faults.refusal {expected : KindSet} (hh : Halts c n ts (.refused expected)) (hp : Passed s₀ ts s)
    (hk : (s.current S).kind ∉ expected) : Faults S c n s₀ (s.refusal S expected) :=
  ⟨ts, _, s, hp, .halt hh, raises_refusal hk⟩

/-- A terminator is missing behind a construct that could also have gone on. -/
theorem Faults.unclosed {f : KindSet} {k : Kind} (hh : Halts c n ts (.refused (f ∪ .single k)))
    (hp : Passed s₀ ts s) (hf : (s.current S).kind ∉ f) (hs : s.follow = f) (hk : (s.current S).kind ≠ k) :
    Faults S c n s₀ (s.refusal S (s.follow ∪ .single k)) := by
  rw [hs]
  exact .refusal hh hp (by simp [hf, hk])

theorem current_of_passed {t : Token} (h : Passed s (t :: ts) s') : s.current S = t := by
  simp [State.current, h.rest]

theorem current_of_passed_nil (h : Passed s [] s') : s.current S = s'.current S := by
  simp [State.current, h.rest]

theorem begun {r : Reason} {i : Nat} (hs : Stops d m us r) (hd : d = .comparison ∨ d = .term)
    (hp : Passed s us s') (hk : (s.current S).kind ∈ termStart) (hr : Raises S (s'.current S) i r e) :
    Begun us r := by
  cases us with
  | nil =>
    rcases hs.at_start rfl (by rcases hd with rfl | rfl <;> simp) (by rcases hd with rfl | rfl <;> simp)
      (by rcases hd with rfl | rfl <;> simp) with rfl | rfl
    · rfl
    · rw [current_of_passed_nil (S := S) hp] at hk
      cases hr <;> contradiction
  | cons t us =>
    rw [current_of_passed hp] at hk
    exact hk

theorem Faults.taken (h : Faults S d m s e) (ho : Takes c n ts d m) (hp : Passed s₀ ts s)
    (hk : (s.current S).kind ∈ termStart) : Faults S c n s₀ e := by
  obtain ⟨us, r, s', hp', hs, hr⟩ := h
  have hd : d = .comparison ∨ d = .term := by cases ho <;> simp
  exact ⟨ts ++ us, r, s', hp.trans hp', .taken ho hs (begun hs hd hp' hk hr), hr⟩

/-! ## Terms and applications -/

variable (hS : S.closing.kind = .finish)

include hS

theorem term_explained (he : Explained S .expression n nested) : Explained S .term n (term S nested) := by
  intro s
  unfold term
  rw [peek_bind]
  cases hk : (s.current S).kind with
  | integer =>
    refine (literal_ends hS (by simp [hk]) _).bind ?_ ?_
    · intro e _ hr
      exact ⟨[], _, s, .refl s, .halt .number, .badNumber hk hr⟩
    · intro a s' h
      obtain ⟨v, t⟩ := a
      obtain ⟨hv, rfl, hp⟩ := h
      exact ⟨_, _, hp, .integer hk (Literal.integer_eq_ok_iff.mp hv), by simp, by simp [remembers]⟩
  | kwTrue =>
    refine (literal_ends hS (by simp [hk]) _).bind ?_ ?_
    · intro e _ hr
      simp [Literal.boolean, hk] at hr
    · intro a s' h
      obtain ⟨b, t⟩ := a
      obtain ⟨hb, rfl, hp⟩ := h
      simp only [Literal.boolean, hk, Except.ok.injEq] at hb
      subst hb
      exact ⟨_, _, hp, .trueWord hk, by simp, by simp [remembers]⟩
  | kwFalse =>
    refine (literal_ends hS (by simp [hk]) _).bind ?_ ?_
    · intro e _ hr
      simp [Literal.boolean, hk] at hr
    · intro a s' h
      obtain ⟨b, t⟩ := a
      obtain ⟨hb, rfl, hp⟩ := h
      simp only [Literal.boolean, hk, Except.ok.injEq] at hb
      subst hb
      exact ⟨_, _, hp, .falseWord hk, by simp, by simp [remembers]⟩
  | identifier =>
    refine (advance_ends hS (by simp [hk]) _).bind (fun _ _ h => h) ?_
    intro t s' h
    obtain ⟨rfl, hp, -⟩ := h
    exact ⟨_, _, hp, .var hk, by simp, by simp [remembers]⟩
  | leftParen =>
    refine (advance_ends hS (by simp [hk]) _).bind (fun _ _ h => h) ?_
    intro t s₁ h
    obtain ⟨rfl, hp₁, -⟩ := h
    refine (he s₁).bind (fun e _ h => h.inside (.group hk) hp₁) ?_
    intro u s₂ h
    obtain ⟨ts, f, hp₂, hu, hf, hs₂⟩ := h
    refine (close_ends hS (by decide) s₂).bind ?_ ?_
    · intro e _ h
      obtain ⟨hr, rfl⟩ := h
      exact .unclosed (.rightParen hk hu) (hp₁.trans hp₂) hf (hs₂ rfl) hr
    · intro r s₃ h
      obtain ⟨hr, hp₃, -⟩ := h
      exact ⟨_, _, (hp₁.trans hp₂).trans hp₃, .group hk hu hr, by simp, by simp [remembers]⟩
  | _ => exact .refusal .term (.refl s) (by rw [hk]; decide)

theorem not_mem_of_rest_nil {f : KindSet} (hf : .finish ∉ f) (hs : s.rest = []) : (s.current S).kind ∉ f := by
  simpa [State.current, hs, hS] using hf

theorem arguments_explained (ht : Explained S .term n (term S nested)) (bound : List Token) {u : Marked}
    (hp : Passed s₀ ts s) (hu : Reads .application n ts u termStart) (hb : s.rest.length ≤ bound.length) :
    Ends (Finishes S .application n s₀) (fun e _ => Faults S .application n s₀ e) (arguments S nested bound u s) := by
  induction bound generalizing s ts u with
  | nil =>
    have hr := List.eq_nil_of_length_eq_zero (Nat.le_zero.mp hb)
    exact ⟨ts, _, hp, hu, not_mem_of_rest_nil hS (by decide) hr, by simp [remembers]⟩
  | cons b bound ih =>
    unfold arguments
    rw [peek_bind]
    by_cases hk : (s.current S).kind ∈ termStart
    · rw [if_pos hk]
      refine (ht s).bind (fun e _ h => h.taken (.argument hu) hp hk) ?_
      intro a s' h
      obtain ⟨as, f, hp', ha, -, -⟩ := h
      obtain rfl := ha.follow_eq rfl
      refine ih (hp.trans hp') (.apply hu ha) ?_
      have h1 := congrArg List.length hp'.rest
      have h2 := List.length_pos_iff.mpr ha.ne_nil
      simp only [List.length_append, List.length_cons] at h1 hb
      omega
    · rw [if_neg hk]
      exact ⟨ts, _, hp, hu, hk, by simp [remembers]⟩

theorem application_explained (ht : Explained S .term n (term S nested)) :
    Explained S .application n (application S nested) := by
  intro s
  unfold application
  refine (ht s).bind (fun e _ h => h.inside .function (.refl s)) ?_
  intro u s' h
  obtain ⟨ts, f, hp, hu, -, -⟩ := h
  obtain rfl := hu.follow_eq rfl
  rw [remaining_bind]
  exact arguments_explained hS ht s'.rest hp (.term hu) (Nat.le_refl _)

/-! ## Sums and factors -/

section Chain

variable {op? : Kind → Option ArithOp} {f g : KindSet} {operand : Production Marked}

theorem operands_explained (J : Joins c d op? f g) (ho : Explained S d n operand) (bound : List Token) {u : Marked}
    (hp : Passed s₀ ts s) (hu : Reads c n ts u f) (hg : (s.current S).kind ∉ g) (hb : s.rest.length ≤ bound.length) :
    Ends (Finishes S c n s₀) (fun e _ => Faults S c n s₀ e) (operands S op? operand bound u s) := by
  induction bound generalizing s ts u with
  | nil =>
    have hr := List.eq_nil_of_length_eq_zero (Nat.le_zero.mp hb)
    have hk : op? (s.current S).kind = none := by
      cases h : op? (s.current S).kind with
      | none => rfl
      | some op => exact absurd (by simp [State.current, hr, hS]) (J.separates h).2
    exact ⟨ts, f, hp, hu, J.ends.mpr ⟨hg, hk⟩, by simp [J.forgets]⟩
  | cons b bound ih =>
    unfold operands
    rw [peek_bind]
    cases hk : op? (s.current S).kind with
    | none => exact ⟨ts, f, hp, hu, J.ends.mpr ⟨hg, hk⟩, by simp [J.forgets]⟩
    | some op =>
      refine (advance_ends hS (J.separates hk).2 _).bind (fun _ _ h => h) ?_
      intro t s₁ h
      obtain ⟨rfl, hp₁, -⟩ := h
      refine (ho s₁).bind (fun e _ h => h.inside (J.reopens hu hk) (hp.trans hp₁)) ?_
      intro r s₂ h
      obtain ⟨rs, g', hp₂, hr, hg', -⟩ := h
      obtain rfl := hr.follow_eq J.operand
      have hp' : Passed s₀ (ts ++ s.current S :: rs) s₂ := hp.trans (hp₁.trans hp₂)
      refine ih hp' (J.next hu hk hr) hg' ?_
      have h1 := congrArg List.length (hp₁.trans hp₂).rest
      simp only [List.length_append, List.length_cons] at h1 hb
      omega

theorem chain_explained (J : Joins c d op? f g) (ho : Explained S d n operand) :
    Explained S c n (chain S op? operand) := by
  intro s
  unfold chain
  refine (ho s).bind (fun e _ h => h.inside J.opens (.refl s)) ?_
  intro u s' h
  obtain ⟨ts, g', hp, hu, hg, -⟩ := h
  obtain rfl := hu.follow_eq J.operand
  rw [remaining_bind]
  exact operands_explained hS J ho s'.rest hp (J.first hu) hg (Nat.le_refl _)

end Chain

/-! ## Comparisons and expressions -/

theorem comparison_explained (ho : Explained S .sum n (sum S nested)) :
    Explained S .comparison n (comparison S nested) := by
  intro s
  unfold comparison
  refine (ho s).bind (fun e _ h => h.inside .left (.refl s)) ?_
  intro l s₁ h
  obtain ⟨ls, f, hp₁, hl, hf, -⟩ := h
  obtain rfl := hl.follow_eq rfl
  rw [peek_bind]
  cases hk : compareOp? (s₁.current S).kind with
  | none =>
    refine ⟨ls, _, hp₁.follow _, .sum hl, ?_, fun _ => rfl⟩
    rw [current_follow, KindSet.mem_union, not_or]
    exact ⟨hf, compareOp?_eq_none.mp hk⟩
  | some op =>
    have hfin : (s₁.current S).kind ≠ .finish := by
      intro h
      rw [h] at hk
      cases hk
    refine (advance_ends hS hfin _).bind (fun _ _ h => h) ?_
    intro t s₂ h
    obtain ⟨rfl, hp₂, -⟩ := h
    refine (ho s₂).bind (fun e _ h => h.inside (.right hl hk) (hp₁.trans hp₂)) ?_
    intro r s₃ h
    obtain ⟨rs, f, hp₃, hr, hf₃, -⟩ := h
    obtain rfl := hr.follow_eq rfl
    exact ⟨_, _, (hp₁.trans (hp₂.trans hp₃)).follow _, .compare hl hk hr, hf₃, fun _ => rfl⟩

theorem conditional_explained (he : Explained S .expression n nested) (hk : (s.current S).kind = .kwIf) :
    Ends (Finishes S .expression (n + 1) s) (fun e _ => Faults S .expression (n + 1) s e)
      (conditional S nested s) := by
  unfold conditional
  refine (advance_ends hS (by simp [hk]) _).bind (fun _ _ h => h) ?_
  intro i s₁ h
  obtain ⟨rfl, hp₁, -⟩ := h
  refine (he s₁).bind (fun e _ h => h.inside (.condition hk) hp₁) ?_
  intro c s₂ h
  obtain ⟨cs, f, hp₂, hc, hf, hs₂⟩ := h
  replace hp₂ := hp₁.trans hp₂
  refine (close_ends hS (by decide) s₂).bind ?_ ?_
  · intro e _ h
    obtain ⟨hr, rfl⟩ := h
    exact .unclosed (.kwThen hk hc) hp₂ hf (hs₂ rfl) hr
  intro th s₃ h
  obtain ⟨hth, hp₃, -⟩ := h
  replace hp₃ := hp₂.trans hp₃
  refine (he s₃).bind (fun e _ h => h.inside (.yes hk hc hth) hp₃) ?_
  intro y s₄ h
  obtain ⟨ys, g, hp₄, hy, hg, hs₄⟩ := h
  replace hp₄ : Passed s (s.current S :: cs ++ th :: ys) s₄ := by simpa using hp₃.trans hp₄
  refine (close_ends hS (by decide) s₄).bind ?_ ?_
  · intro e _ h
    obtain ⟨hr, rfl⟩ := h
    exact .unclosed (.kwElse hk hc hth hy) hp₄ hg (hs₄ rfl) hr
  intro el s₅ h
  obtain ⟨hel, hp₅, -⟩ := h
  replace hp₅ := hp₄.trans hp₅
  refine (he s₅).bind (fun e _ h => h.inside (.no hk hc hth hy hel) hp₅) ?_
  intro z s₆ h
  obtain ⟨zs, h, hp₆, hz, hh, hs₆⟩ := h
  replace hp₆ : Passed s (s.current S :: cs ++ th :: ys ++ el :: zs) s₆ := by simpa using hp₅.trans hp₆
  exact ⟨_, _, hp₆, .cond hk hc hth hy hel hz, hh, fun _ => hs₆ rfl⟩

theorem function_explained (he : Explained S .expression n nested) (ht : Explained S .type n types)
    (hk : (s.current S).kind = .kwFun) :
    Ends (Finishes S .expression (n + 1) s) (fun e _ => Faults S .expression (n + 1) s e)
      (function S nested types s) := by
  unfold function
  refine (advance_ends hS (by simp [hk]) _).bind (fun _ _ h => h) ?_
  intro fn s₁ h
  obtain ⟨rfl, hp₁, -⟩ := h
  refine (consume_ends hS (by decide) s₁).bind ?_ ?_
  · intro e _ h
    obtain ⟨hr, rfl⟩ := h
    exact .refusal (.param hk) hp₁ (by simpa using hr)
  intro x s₂ h
  obtain ⟨hx, hp₂, -⟩ := h
  replace hp₂ := hp₁.trans hp₂
  refine (consume_ends hS (by decide) s₂).bind ?_ ?_
  · intro e _ h
    obtain ⟨hr, rfl⟩ := h
    exact .refusal (.colon hk hx) hp₂ (by simpa using hr)
  intro c₁ s₃ h
  obtain ⟨hc₁, hp₃, -⟩ := h
  replace hp₃ := hp₂.trans hp₃
  refine (ht s₃).bind (fun e _ h => h.inside (.domain hk hx hc₁) hp₃) ?_
  intro p s₄ h
  obtain ⟨ps, f, hp₄, hpt, hf, hs₄⟩ := h
  replace hp₄ : Passed s (s.current S :: x :: c₁ :: ps) s₄ := by simpa using hp₃.trans hp₄
  refine (close_ends hS (by decide) s₄).bind ?_ ?_
  · intro e _ h
    obtain ⟨hr, rfl⟩ := h
    exact .unclosed (.nextColon hk hx hc₁ hpt) hp₄ hf (hs₄ rfl) hr
  intro c₂ s₅ h
  obtain ⟨hc₂, hp₅, -⟩ := h
  replace hp₅ := hp₄.trans hp₅
  refine (ht s₅).bind (fun e _ h => h.inside (.codomain hk hx hc₁ hpt hc₂) hp₅) ?_
  intro r s₆ h
  obtain ⟨rs, g, hp₆, hrt, hg, hs₆⟩ := h
  replace hp₆ : Passed s (s.current S :: x :: c₁ :: ps ++ c₂ :: rs) s₆ := by simpa using hp₅.trans hp₆
  refine (close_ends hS (by decide) s₆).bind ?_ ?_
  · intro e _ h
    obtain ⟨hr, rfl⟩ := h
    exact .unclosed (.kwIs hk hx hc₁ hpt hc₂ hrt) hp₆ hg (hs₆ rfl) hr
  intro is s₇ h
  obtain ⟨his, hp₇, -⟩ := h
  replace hp₇ := hp₆.trans hp₇
  refine (he s₇).bind (fun e _ h => h.inside (.body hk hx hc₁ hpt hc₂ hrt his) hp₇) ?_
  intro b s₈ h
  obtain ⟨bs, h, hp₈, hb, hh, hs₈⟩ := h
  replace hp₈ : Passed s (s.current S :: x :: c₁ :: ps ++ c₂ :: rs ++ is :: bs) s₈ := by simpa using hp₇.trans hp₈
  exact ⟨_, _, hp₈, .func hk hx hc₁ hpt hc₂ hrt his hb, hh, fun _ => hs₈ rfl⟩

theorem expressionTier_explained (he : Explained S .expression n nested) (ht : Explained S .type n types)
    (hc : Explained S .comparison n (comparison S nested)) :
    Explained S .expression (n + 1) (expressionTier S nested types) := by
  intro s
  unfold expressionTier
  rw [peek_bind]
  by_cases hi : (s.current S).kind = .kwIf
  · rw [if_pos hi]
    exact conditional_explained hS he hi
  rw [if_neg hi]
  by_cases hf : (s.current S).kind = .kwFun
  · rw [if_pos hf]
    exact function_explained hS he ht hf
  rw [if_neg hf]
  by_cases hk : (s.current S).kind ∈ expressionStart
  · rw [if_pos hk]
    have hterm : (s.current S).kind ∈ termStart := by simpa [mem_expressionStart, hi, hf] using hk
    refine (hc s).mono ?_ (fun e _ h => h.taken .comparison (.refl s) hterm)
    intro u s' h
    obtain ⟨ts, f, hp, hu, hf', hs'⟩ := h
    exact ⟨ts, f, hp, .comparison hu, hf', fun _ => hs' rfl⟩
  · rw [if_neg hk]
    exact .refusal .expression (.refl s) hk

/-! ## Types -/

theorem atomicType_explained (ht : Explained S .type n nested) :
    Explained S .atomicType n (atomicType S nested) := by
  intro s
  unfold atomicType
  rw [peek_bind]
  cases hk : (s.current S).kind with
  | kwInt =>
    refine (advance_ends hS (by simp [hk]) _).bind (fun _ _ h => h) ?_
    intro t s' h
    obtain ⟨rfl, hp, -⟩ := h
    exact ⟨_, _, hp, .int hk, by simp, by simp [remembers]⟩
  | kwBool =>
    refine (advance_ends hS (by simp [hk]) _).bind (fun _ _ h => h) ?_
    intro t s' h
    obtain ⟨rfl, hp, -⟩ := h
    exact ⟨_, _, hp, .bool hk, by simp, by simp [remembers]⟩
  | leftParen =>
    refine (advance_ends hS (by simp [hk]) _).bind (fun _ _ h => h) ?_
    intro t s₁ h
    obtain ⟨rfl, hp₁, -⟩ := h
    refine (ht s₁).bind (fun e _ h => h.inside (.typeGroup hk) hp₁) ?_
    intro u s₂ h
    obtain ⟨ts, f, hp₂, hu, hf, hs₂⟩ := h
    refine (close_ends hS (by decide) s₂).bind ?_ ?_
    · intro e _ h
      obtain ⟨hr, rfl⟩ := h
      exact .unclosed (.typeRightParen hk hu) (hp₁.trans hp₂) hf (hs₂ rfl) hr
    · intro r s₃ h
      obtain ⟨hr, hp₃, -⟩ := h
      exact ⟨_, _, (hp₁.trans hp₂).trans hp₃, .typeGroup hk hu hr, by simp, by simp [remembers]⟩
  | _ => exact .refusal .atomicType (.refl s) (by rw [hk]; decide)

theorem typeTier_explained (ht : Explained S .type n nested) :
    Explained S .type (n + 1) (typeTier S nested) := by
  intro s
  unfold typeTier
  refine (atomicType_explained hS ht s).bind (fun e _ h => h.inside .atomicType (.refl s)) ?_
  intro p s₁ h
  obtain ⟨ps, f, hp₁, hp, -, -⟩ := h
  obtain rfl := hp.follow_eq rfl
  rw [peek_bind]
  by_cases hk : (s₁.current S).kind = .arrow
  · rw [if_pos hk]
    refine (advance_ends hS (by simp [hk]) _).bind (fun _ _ h => h) ?_
    intro o s₂ h
    obtain ⟨rfl, hp₂, -⟩ := h
    refine (ht s₂).bind (fun e _ h => h.inside (.result hp hk) (hp₁.trans hp₂)) ?_
    intro r s₃ h
    obtain ⟨rs, f, hp₃, hr, hf, hs₃⟩ := h
    obtain rfl := hr.follow_eq rfl
    exact ⟨_, _, hp₁.trans (hp₂.trans hp₃), .arrow hp hk hr, hf, fun _ => hs₃ rfl⟩
  · rw [if_neg hk]
    exact ⟨ps, _, hp₁.follow _, .atomicType hp, by simpa using hk, fun _ => rfl⟩

/-! ## All tiers -/

theorem sum_explained (he : Explained S .expression n nested) : Explained S .sum n (sum S nested) :=
  chain_explained hS joins_sum
    (chain_explained hS joins_factor (application_explained hS (term_explained hS he)))

theorem levels_explained (n : Nat) :
    Explained S .expression n (expression S n) ∧ Explained S .type n (typeExpr S n) := by
  induction n with
  | zero => exact ⟨fun s => ⟨[], _, s, .refl s, .halt .expressionLevel, .tooDeep⟩,
      fun s => ⟨[], _, s, .refl s, .halt .typeLevel, .tooDeep⟩⟩
  | succ n ih =>
    obtain ⟨he, ht⟩ := ih
    exact ⟨expressionTier_explained hS he ht (comparison_explained hS (sum_explained hS he)),
      typeTier_explained hS ht⟩

theorem tierProduction_explained (n : Nat) (c : Tier) : Explained S c n (tierProduction S n c) := by
  obtain ⟨he, ht⟩ := levels_explained hS n
  cases c with
  | expression => exact he
  | comparison => exact comparison_explained hS (sum_explained hS he)
  | sum => exact sum_explained hS he
  | factor => exact chain_explained hS joins_factor (application_explained hS (term_explained hS he))
  | application => exact application_explained hS (term_explained hS he)
  | term => exact term_explained hS he
  | type => exact ht
  | atomicType => exact atomicType_explained hS ht

end LambdaSyntax.Parse
