/-
  LambdaSyntax.Proofs.Sites — the places where a token can be refused.

  There are few kinds of place, whatever is nested around them. An expression, a term or a type is to
  start; the head of a function wants its parameter or a colon; or an expression or a type is complete
  and is to be ended. `Site ts expected` says that behind the tokens `ts` the parser stands at such a
  place, with what it expects there. Every refused token is refused at one (`readTokens_site`).

  At the end of an expression the kinds that extend a sum are all expected, and so are comparisons unless
  one has been read, with a whole sum behind it (`Reads.follow_expression`).
-/

import LambdaSyntax.Proofs.Expected

namespace LambdaSyntax.Parse

variable {c : Tier} {n : Nat} {ts us : List Token} {u : Marked} {f expected : KindSet} {k : Kind}

/-! ## The end of an expression -/

/-- The tokens end with a comparison of their own: its operator and the whole sum to the right of it. -/
def EndsCompared (ts : List Token) : Prop :=
  ∃ ls o rs n r, ts = ls ++ o :: rs ∧ o.kind ∈ Hint.comparisons ∧ Reads .sum n rs r operandFollow

theorem EndsCompared.behind (h : EndsCompared us) (ts : List Token) : EndsCompared (ts ++ us) := by
  obtain ⟨ls, o, rs, n, r, rfl, ho, hr⟩ := h
  exact ⟨ts ++ ls, o, rs, n, r, by simp, ho, hr⟩

theorem comparison_of_compareOp {op : CompareOp} (h : compareOp? k = some op) : k ∈ Hint.comparisons := by
  refine Decidable.byContradiction fun hk => ?_
  rw [compareOp?_eq_none.mpr hk] at h
  cases h

/-- An expression can be continued as a sum, and also be compared unless it ends with a comparison. -/
theorem Reads.follow_expression (h : Reads c n ts u f) (hc : c = .expression ∨ c = .comparison) :
    f = operandFollow ∪ Hint.comparisons ∨ f = operandFollow ∧ EndsCompared ts := by
  induction h with
  | @cond n i th el cs ys zs _ _ _ _ _ _ _ _ _ _ _ _ _ _ ih =>
    refine (ih (.inl rfl)).imp_right fun h => ⟨h.1, ?_⟩
    have hends := h.2.behind (i :: cs ++ th :: ys ++ [el])
    rwa [List.append_assoc] at hends
  | @func n fn x c₁ c₂ is ps rs bs _ _ _ _ _ _ _ _ _ _ _ _ _ _ _ _ ih =>
    refine (ih (.inl rfl)).imp_right fun h => ⟨h.1, ?_⟩
    have hends := h.2.behind (fn :: x :: c₁ :: ps ++ c₂ :: rs ++ [is])
    rwa [List.append_assoc] at hends
  | comparison _ ih => exact ih (.inr rfl)
  | compare _ ho hr => exact .inr ⟨rfl, _, _, _, _, _, rfl, comparison_of_compareOp ho, hr⟩
  | sum => exact .inl rfl
  | _ => simp at hc

/-! ## Sites -/

/-- What ends an expression, a whole one or a part. -/
def expressionEnds : KindSet := .ofList [.kwThen, .kwElse, .rightParen, .finish]

def typeEnds : KindSet := .ofList [.colon, .kwIs, .rightParen, .finish]

inductive Site : List Token → KindSet → Prop
  | expressionStart {ts : List Token} : Site ts expressionStart
  | termStart {ts : List Token} : Site ts termStart
  | typeStart {ts : List Token} : Site ts typeStart
  | param {ts : List Token} : Site ts (.single .identifier)
  | colon {ts : List Token} : Site ts (.single .colon)
  | expressionEnd (ts : List Token) {n : Nat} {us : List Token} {u : Marked} {f : KindSet} {k : Kind} :
      Reads .expression n us u f → k ∈ expressionEnds → Site (ts ++ us) (f ∪ .single k)
  | typeEnd (ts : List Token) {n : Nat} {us : List Token} {u : Marked} {f : KindSet} {k : Kind} :
      Reads .type n us u f → k ∈ typeEnds → Site (ts ++ us) (f ∪ .single k)

theorem Site.inside (h : Site us expected) (ts : List Token) : Site (ts ++ us) expected := by
  cases h with
  | expressionStart => exact .expressionStart
  | termStart => exact .termStart
  | typeStart => exact .typeStart
  | param => exact .param
  | colon => exact .colon
  | expressionEnd before h hk =>
    rw [← List.append_assoc]
    exact .expressionEnd (ts ++ before) h hk
  | typeEnd before h hk =>
    rw [← List.append_assoc]
    exact .typeEnd (ts ++ before) h hk

theorem Halts.site (h : Halts c n ts (.refused expected)) : Site ts expected := by
  cases h with
  | expression => exact .expressionStart
  | term => exact .termStart
  | atomicType => exact .typeStart
  | param => exact .param
  | colon => exact .colon
  | kwThen _ hc => exact .expressionEnd [_] hc (by decide)
  | kwElse _ _ _ hy =>
    rw [List.append_cons]
    exact .expressionEnd _ hy (by decide)
  | rightParen _ hu => exact .expressionEnd [_] hu (by decide)
  | nextColon _ _ _ hp => exact .typeEnd [_, _, _] hp (by decide)
  | kwIs _ _ _ _ _ hr =>
    rw [List.append_cons]
    exact .typeEnd _ hr (by decide)
  | typeRightParen _ hu => exact .typeEnd [_] hu (by decide)

theorem Stops.site {r : Reason} (h : Stops c n ts r) (hr : r = .refused expected) : Site ts expected := by
  induction h with
  | halt h => exact (hr ▸ h).site
  | @inside _ _ _ _ ts _ _ _ _ ih => exact (ih hr).inside ts
  | @taken _ _ _ _ ts _ _ _ _ _ ih => exact (ih hr).inside ts

/-- The end of a whole expression or type is a site too. -/
theorem Reads.site {g : Goal} (h : Reads g.tier n us u f) : Site us (f ∪ .single .finish) := by
  cases g with
  | expression => exact .expressionEnd [] h (by decide)
  | type => exact .typeEnd [] h (by decide)

/-! ## Refused tokens -/

/-- A token is refused at a site. The tokens `us` that were passed begin something that is read as a whole,
    and the first of `rest`, or else the end, is none of the kinds that are expected behind them. -/
structure RefusedAt (g : Goal) (ts : List Token) (e : SyntaxError) (us rest : List Token) : Prop where
  body : (Stream.ofTokens ts).body = us ++ rest
  site : Site us e.expected
  begins : ∃ n more, Makes g.tier n (us ++ more)
  position : e.position = us.length
  token : e.token = rest.headD (Stream.ofTokens ts).closing
  refused : e.token.kind ∉ e.expected

/-- Only where a kind was expected is a token refused. -/
theorem Raises.refuses {S : Setting} {t : Token} {i : Nat} {r : Reason} {e : SyntaxError} (h : Raises S t i r e)
    (he : e.refuses = true) : ∃ expected, r = .refused expected := by
  cases h with
  | unexpected | unexpectedEnd => exact ⟨_, rfl⟩
  | badNumber _ hi => rcases Literal.integer_error hi with rfl | ⟨reason, rfl⟩ <;> cases he
  | tooDeep => cases he

theorem readTokens_site {g : Goal} {limit : Int} {e : SyntaxError} (h : readTokens g limit ts = .error e)
    (he : e.refuses = true) : ∃ us rest, RefusedAt g ts e us rest := by
  have hout := readTokens_outcome g limit ts
  rw [h] at hout
  cases hout with
  | @stopped us rest r e hb hstop hr =>
    obtain ⟨expected, rfl⟩ := hr.refuses he
    obtain ⟨hpos, htok, hexp, hnot, -⟩ := hr.facts
    obtain ⟨k, hk⟩ := hstop.exists_mem rfl
    obtain ⟨n, more, hmore⟩ := hstop.grows_iff.mp hk
    exact ⟨us, rest, hb, hexp ▸ hstop.site rfl, ⟨n, _, hmore⟩, hpos, htok, by rwa [htok, hexp]⟩
  | @leftOver us rest u f e hb hread hr =>
    obtain ⟨hpos, htok, hexp, hnot, -⟩ := hr.facts
    have hwhole : Makes g.tier limit.toNat (us ++ []) := by rw [List.append_nil]; exact hread.makes
    exact ⟨us, rest, hb, hexp ▸ hread.site, ⟨_, [], hwhole⟩, hpos, htok, by rwa [htok, hexp]⟩

end LambdaSyntax.Parse
