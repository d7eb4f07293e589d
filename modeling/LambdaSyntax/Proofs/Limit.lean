/-
  LambdaSyntax.Proofs.Limit — what a larger limit changes.

  A reading that does not ask for more levels than it has comes out alike with more
  (`readTokens_of_not_tooDeep`). One that does has read tokens that make a construct with one
  level more, if only the rest is chosen well (`Stops.makes_deeper`). So with more levels
  none of these tokens is refused, and the reading gets beyond them.

  A host with room for fewer levels than the limit reads as if it were given the limit it has
  room for, and names the other (`readTokensBelow_eq`).
-/

import LambdaSyntax.Proofs.Correctness
import LambdaSyntax.Proofs.Grows

namespace LambdaSyntax

namespace Parse

open Grammar

variable {S : Setting} {c : Tier} {n k : Nat} {ts us : List Token} {r : Reason} {t : Token} {e : SyntaxError}

/-- What was too deep can be completed with one more level, or several. -/
theorem Stops.makes_deeper (h : Stops c n ts r) (hr : r = .tooDeep) (k : Nat) :
    ∃ ws, Makes c (n + (k + 1)) (ts ++ ws) := by
  induction h with
  | halt h =>
    subst hr
    rw [Nat.add_comm]
    cases h with
    | expressionLevel => exact ⟨_, makes_expression⟩
    | typeLevel => exact ⟨_, makes_type⟩
  | inside ho _ ih =>
    obtain ⟨ws, hw⟩ := ih hr
    obtain ⟨vs, hv⟩ := (ho.raise (k + 1)).makes hw
    exact ⟨ws ++ vs, by simpa using hv⟩
  | taken ht _ _ ih =>
    obtain ⟨ws, hw⟩ := ih hr
    exact ⟨ws, by simpa using (ht.raise (k + 1)).makes hw⟩

/-- With one more level, or several, nothing stops inside what was read before it got too
    deep: neither for want of levels nor because of the token `x` that stands there. -/
theorem Stops.not_inside {xs : List Token} (h : Stops c n (us ++ xs) .tooDeep) (h' : Stops c (n + (k + 1)) us r)
    (hr : r = .tooDeep ∨ ∃ x i e, xs.head? = some x ∧ Raises S x i r e) : False := by
  obtain ⟨more, hm⟩ := h.makes_deeper rfl k
  obtain ⟨u, s, hrun, -⟩ := trial_run hm
  have hraises : ∃ e, Raises trial ((xs ++ more).headD trial.closing) (0 + us.length) r e := by
    rcases hr with rfl | ⟨x, i, e, hx, he⟩
    · exact ⟨_, .tooDeep⟩
    · obtain ⟨ys, rfl⟩ := List.head?_eq_some_iff.mp hx
      exact he.elsewhere _ _
  obtain ⟨e, he⟩ := hraises
  obtain ⟨s', hs⟩ := stops_run (S := trial) rfl h' 0 (xs ++ more) ∅ e he
  rw [List.append_assoc, hs] at hrun
  cases hrun

variable {vs ws : List Token}

theorem Stops.beyond (h : Stops c n ts .tooDeep) (h' : Stops c (n + (k + 1)) us r)
    (he : Raises S (ws.headD S.closing) us.length r e) (hts : ts ++ vs = us ++ ws) :
    ts.length ≤ us.length ∧ (r = .tooDeep → ts.length < us.length) := by
  -- both stand at the front of the same tokens, so one begins with the other
  have hdeep : r = .tooDeep → us ≠ ts := by
    intro hr he
    subst he
    rw [← List.append_nil us] at h
    exact h.not_inside h' (S := S) (.inl hr)
  rcases List.append_eq_append_iff.mp hts with ⟨as, rfl, -⟩ | ⟨xs, rfl, rfl⟩
  · refine ⟨by simp, fun hr => ?_⟩
    have has : as ≠ [] := by
      intro he
      subst he
      exact hdeep hr (List.append_nil ts)
    have := List.length_pos_iff.mpr has
    rw [List.length_append]
    omega
  · cases xs with
    | nil => exact ⟨by simp, fun hr => absurd (List.append_nil us).symm (hdeep hr)⟩
    | cons x xs => exact (h.not_inside h' (.inr ⟨x, _, e, rfl, he⟩)).elim

theorem Reads.beyond {u : Marked} {f : KindSet} (h : Stops c n ts .tooDeep) (h' : Reads c (n + (k + 1)) us u f)
    (hf : (ws.headD S.closing).kind ∉ f) (hts : ts ++ vs = us ++ ws) : ts.length ≤ us.length := by
  rcases List.append_eq_append_iff.mp hts with ⟨as, rfl, -⟩ | ⟨xs, rfl, rfl⟩
  · simp
  · cases xs with
    | nil => simp
    | cons x xs =>
      obtain ⟨more, hm⟩ := h.makes_deeper rfl k
      rw [List.append_assoc] at hm
      exact absurd (h'.mem_of_makes hm) hf

/-! ## Two limits -/

variable {g : Goal} {d d' : Int}

theorem readTokens_of_not_tooDeep (h : d ≤ d') (hd : ∀ t p l, readTokens g d ts ≠ .error (.tooDeep t p l)) :
    readTokens g d' ts = readTokens g d ts := by
  have hn : d.toNat ≤ d'.toNat := Int.toNat_le_toNat h
  obtain ⟨k, hk⟩ := Nat.exists_eq_add_of_le hn
  refine Outcome.readTokens_eq ?_
  have hout := readTokens_outcome g d ts
  generalize readTokens g d ts = x at hout hd
  cases hout with
  | read hb hr hfin => exact .read hb (hr.raise hn) hfin
  | @stopped us rest r e hb hs he =>
    have hr : r ≠ .tooDeep := by
      intro hr
      subst hr
      cases he
      exact hd _ _ _ rfl
    refine .stopped hb ?_ (he.setting hr _)
    rw [hk]
    exact hs.raise hr k
  | leftOver hb hr he => exact .leftOver hb (hr.raise hn) (he.setting (by simp) _)

theorem outcome_of_tooDeep {t : Token} {p l : Int} (h : readTokens g d ts = .error (.tooDeep t p l)) :
    ∃ us rest, (Stream.ofTokens ts).body = us ++ rest ∧ Stops g.tier d.toNat us .tooDeep ∧ p = us.length := by
  have hout := readTokens_outcome g d ts
  rw [h] at hout
  cases hout with
  | stopped hb hs he =>
    obtain ⟨rfl, hp⟩ := he.of_tooDeep
    exact ⟨_, _, hb, hs, hp⟩
  | leftOver _ _ he => cases he.of_tooDeep.1

theorem limit_of_tooDeep {t : Token} {p l : Int} (h : readTokens g d ts = .error (.tooDeep t p l)) : l = d := by
  have hout := readTokens_outcome g d ts
  rw [h] at hout
  cases hout with
  | stopped _ _ he =>
    obtain ⟨rfl, -⟩ := he.of_tooDeep
    cases he
    rfl
  | leftOver _ _ he => cases he.of_tooDeep.1

/-- The error, with another limit put into it. -/
def atLimit (l : Int) : SyntaxError → SyntaxError
  | .tooDeep t p _ => .tooDeep t p l
  | e => e

theorem atLimit_of_not_tooDeep (h : ∀ t p l, e ≠ .tooDeep t p l) (l : Int) : atLimit l e = e := by
  cases e with
  | tooDeep t p l => exact absurd rfl (h t p l)
  | _ => rfl

theorem Raises.atLimit {i : Nat} (h : Raises ⟨S.closing, d⟩ t i r e) (d' : Int) :
    Raises ⟨S.closing, d'⟩ t i r (Parse.atLimit d' e) := by
  by_cases hr : r = .tooDeep
  · subst hr
    cases h
    exact .tooDeep
  · rw [atLimit_of_not_tooDeep fun t' p l he => hr (Raises.of_tooDeep (he ▸ h)).1]
    exact h.setting hr _

theorem Outcome.atLimit {body : List Token} {x : Except SyntaxError Marked} (h : Outcome ⟨S.closing, d⟩ g n body x)
    (d' : Int) : Outcome ⟨S.closing, d'⟩ g n body (x.mapError (Parse.atLimit d')) := by
  cases h with
  | read hb hr hk => exact .read hb hr hk
  | stopped hb hs he => exact .stopped hb hs (he.atLimit (S := S) d')
  | leftOver hb hr he => exact .leftOver hb hr (he.atLimit (S := S) d')

end Parse

open Parse

/-- Room for fewer levels is a smaller limit, except that the limit itself is named. -/
theorem readTokensBelow_eq (ceiling : Nat) (g : Goal) (limit : Int) (ts : List Token) :
    readTokensBelow ceiling g limit ts = (readTokens g (min limit ceiling) ts).mapError (atLimit limit) := by
  have hlevels : min (levels limit 0) ceiling = (min limit ceiling).toNat := by
    rw [levels]
    omega
  rw [readTokensBelow, hlevels]
  have hout := readTokens_outcome g (min limit ceiling) ts
  exact (hout.atLimit (S := settingOf (.ofTokens ts) limit) limit).readStream_eq

/-- Room for fewer levels makes no difference to a reading that has room enough. -/
theorem readTokensBelow_of_room {ceiling : Nat} {g : Goal} {limit : Int} {ts : List Token}
    (h : ∀ t p l, readTokens g (min limit ceiling) ts ≠ .error (.tooDeep t p l)) :
    readTokensBelow ceiling g limit ts = readTokens g limit ts := by
  rw [readTokensBelow_eq, ← readTokens_of_not_tooDeep (Int.min_le_left limit ceiling) h]
  cases hread : readTokens g limit ts with
  | ok t => rfl
  | error e =>
    refine congrArg Except.error (atLimit_of_not_tooDeep ?_ limit)
    rintro t p l rfl
    rw [readTokens_of_not_tooDeep (Int.min_le_left limit ceiling) h] at hread
    exact h t p l hread

end LambdaSyntax
