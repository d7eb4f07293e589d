/-
  LambdaSyntax.Proofs.Progress — every tier gets on, and so every tier ends.

  A tier that has read something has passed tokens, none of them an end and their parentheses
  balanced, and the session stands at a token that would not have been more of the same: after a
  sum, a factor or an application at none of the kinds that extend one, after an expression, a
  comparison or a type at none of those that it left behind (`Progresses`).

  No further level is entered and no further round begun without a token having been passed. So
  the tokens before the next end bound both, however many levels the limit leaves (`Enough`). With
  such bounds nothing is exhausted, and higher ones change no answer: not that of a repetition
  (`repetition_answered`), of a tier or of a whole reading.
-/

import LambdaSyntax.Proofs.Calls
import LambdaSyntax.Proofs.Parentheses

namespace LambdaSyntax.Parse

variable {n : Nat} {c : Tier} {s s' : Session} {st : State} {ts : List Token} {u : Marked} {f g : KindSet}

/-! ## What has been passed -/

/-- The kinds that would have been more of a construct of a tier. An expression, a comparison and a
    type leave them behind in `follow`. -/
def takesIn (follow : KindSet) : Tier → KindSet
  | .expression | .comparison | .type => follow
  | .sum => operandFollow
  | .factor => factorFollow
  | .application => termStart
  | .term | .atomicType => ∅

theorem Reads.takesIn_eq (h : Reads c n ts u f) (hg : remembers c → g = f) : takesIn g c = f := by
  cases c with
  | expression | comparison | type => exact hg rfl
  | _ => exact (h.follow_eq rfl).symm

namespace Session

/-- The tokens between two places of a session. -/
def passed (s s' : Session) : List Token := (s.stream.tokens.drop s.current).take (s'.current - s.current)

/-- `s'` stands behind a construct of the tier `c` that was read at `s`. -/
structure Progresses (c : Tier) (s s' : Session) : Prop where
  stream : s'.stream = s.stream
  inRange : s'.InRange
  onward : s.current < s'.current
  noEnd : ∀ t ∈ s.passed s', t.kind ≠ .finish
  balanced : Balanced (s.passed s')
  stopped : s'.peek.kind ∉ takesIn s'.follow c

theorem index_of_passed (h : Passed s.state ts st) : st.index = s.current + ts.length := h.index

theorem body_of_passed (h : Passed s.state ts st) : s.stream.body.drop s.current = ts ++ st.rest := h.rest

theorem peek_restored (h : Passed s.state ts st) : (s.restored st).peek = st.current s.setting := by
  have hdrop : s.stream.body.drop st.index = st.rest := by
    rw [index_of_passed h, ← List.drop_drop, body_of_passed h, List.drop_left]
  show (s.stream.body.drop st.index).headD s.stream.closing = st.rest.headD s.stream.closing
  rw [hdrop]

theorem index_le_of_passed (h : Passed s.state ts st) (hts : ts ≠ []) : st.index ≤ s.stream.body.length := by
  have hindex := index_of_passed h
  have hrest := congrArg List.length h.rest
  have hpos := List.length_pos_iff.mpr hts
  rw [rest_length, List.length_append] at hrest
  omega

theorem passed_restored (h : Passed s.state ts st) (hts : ts ≠ []) : s.passed (s.restored st) = ts := by
  have hle := index_le_of_passed h hts
  have hindex := index_of_passed h
  have hcount : st.index - s.current = ts.length := by omega
  show ((s.stream.body ++ [s.stream.closing]).drop s.current).take (st.index - s.current) = ts
  rw [List.drop_append_of_le_length (by omega), body_of_passed h, hcount, List.append_assoc]
  exact List.take_left

/-- Whatever number of levels is left. -/
theorem perform_progresses (h : s.perform (tierProduction s.setting n c) = (.tree u, s')) : Progresses c s s' := by
  have hS : s.setting.closing.kind = .finish := s.stream.closing_kind
  have hends := tierProduction_explained hS n c s.state
  unfold perform at h
  cases hp : tierProduction s.setting n c s.state with
  | error e st =>
    rw [hp] at h
    cases h
  | ok v st =>
    rw [hp] at h hends
    cases h
    obtain ⟨ts, f, hpassed, hreads, hstop, hfollow⟩ := hends
    have hts := passed_restored hpassed hreads.ne_nil
    refine ⟨rfl, ?inRange, ?onward, ?noEnd, ?balanced, ?stopped⟩
    case inRange =>
      show st.index < s.stream.size
      rw [Stream.size_eq]
      exact Nat.lt_succ_of_le (index_le_of_passed hpassed hreads.ne_nil)
    case onward =>
      show s.current < st.index
      rw [index_of_passed hpassed]
      exact Nat.lt_add_of_pos_right (List.length_pos_iff.mpr hreads.ne_nil)
    case noEnd =>
      rw [hts]
      exact fun t ht => (hreads.passable t ht).1
    case balanced =>
      rw [hts]
      exact hreads.balanced
    case stopped =>
      show _ ∉ takesIn st.follow c
      rwa [peek_restored hpassed, hreads.takesIn_eq hfollow]

end Session

/-! ## Bounds -/

namespace Counted

open Session

/-- What is repeated within a tier. -/
inductive Repetition where
  | arguments
  | factors
  | summands
  deriving DecidableEq, Repr

/-- Goes on behind `u` for some rounds, what is nested having `n` levels. -/
def Repetition.run (n rounds : Nat) (u : Marked) : Repetition → Routine Marked
  | .arguments => Counted.arguments (expression n) rounds u
  | .factors => operands factorOp? (application (expression n)) rounds u
  | .summands => operands sumOp? (factor (expression n)) rounds u

theorem repetition_answered (hs : s.InRange) (u : Marked) (r : Repetition) :
    ∃ a, ∀ n rounds, Enough s n → s.ahead < rounds → settle .tree (r.run n rounds u s) = some a := by
  have hst := (stands hs).wider
  have hc : Consumes (Parse.term s.setting (Parse.expression s.setting (levels s.limit s.depth))) :=
    term_consumes hst.closing
  have he : ∀ n, Enough s n → Mirrors s.setting s.depth (s.ahead + 1) (expression n)
      (Parse.expression s.setting (levels s.limit s.depth)) := fun n h => expression_mirrors hst.closing h.bound
  cases r with
  | arguments =>
    exact ⟨_, fun n rounds h hr => (arguments_matched (he n h) hc _ hst (Nat.le_refl _) hr).settle.1⟩
  | factors =>
    exact ⟨_, fun n rounds h hr =>
      (operands_matched rfl (application_mirrors (he n h) hc) _ hst (Nat.le_refl _) hr).settle.1⟩
  | summands =>
    exact ⟨_, fun n rounds h hr =>
      (operands_matched rfl (factor_mirrors (he n h) hc) _ hst (Nat.le_refl _) hr).settle.1⟩

/-- Wherever a session stands, at any depth and with any limit, a tier that reads something gets on.
    And whatever is run there comes to an end: a tier, one of its repetitions on its own and the
    reading of the whole stream. What it answers is the same for all bounds that are enough. -/
theorem tier_progresses (hs : s.InRange) :
    (∀ c u s', s.step (.tier c) = (.tree u, s') → Progresses c s s') ∧
    (∀ c n, Enough s n → settle .tree (tier n c s) = some (s.step (.tier c))) ∧
    (∀ (r : Repetition) (u : Marked), ∃ a, ∀ n rounds, Enough s n → s.ahead < rounds →
      settle .tree (r.run n rounds u s) = some a) ∧
    ∀ g n, Enough (fresh s) n → settle .tree (root n g s) = some (s.step (.read g)) := by
  refine ⟨?progress, ?tiers, ?repetitions, ?readings⟩
  case progress => exact fun c u s' h => perform_progresses h
  case tiers => exact fun c n h => (tier_answered hs h c).1
  case repetitions => exact fun r u => repetition_answered hs u r
  case readings => exact fun g n h => (root_answered h g).1

/-- In `f (x) x + x`, from the parenthesis on and two levels down, where a thousand are allowed. -/
theorem tier_progresses_application : ∃ (s s' : Session) (u : Marked),
    s.stream.body.map Token.kind =
      [.identifier, .leftParen, .identifier, .rightParen, .identifier, .plus, .identifier] ∧
    s.current = 1 ∧ s.depth = 2 ∧ s.limit = 1000 ∧ s.InRange ∧
    s.step (.tier .application) = (.tree u, s') ∧ s'.current = 5 ∧ Progresses .application s s' ∧
    s.ahead = 6 ∧ Enough s 7 ∧ settle .tree (tier 7 .application s) = some (.tree u, s') := by
  have hs : (⟨.ofTokens ([.identifier, .leftParen, .identifier, .rightParen, .identifier, .plus,
      .identifier].map sample), 1000, 1, 2, ∅⟩ : Session).InRange := by
    unfold InRange
    decide
  obtain ⟨hprogress, htiers, -, -⟩ := tier_progresses hs
  refine ⟨_, _, _, by decide, rfl, rfl, rfl, hs, rfl, rfl, hprogress _ _ _ rfl, by decide, ?enough,
    htiers _ _ ?enough⟩
  exact .inr (by decide)

end Counted

end LambdaSyntax.Parse
