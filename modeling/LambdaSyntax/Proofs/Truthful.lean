/-
  LambdaSyntax.Proofs.Truthful — when the hints on structure are true.

  Two hints say something of the tokens before the refused one: that a right parenthesis closes none of
  them, and that a comparison has been made among them. They are made for the refused token alone, so
  they need not be true: in `()` the parentheses match, and in `<` nothing is compared before
  (`readText_hints_untrue`).

  A right parenthesis is one too many exactly where no left one is left open (`RefusedAt.unmatched_iff`).
  A comparison is a second one exactly where something balanced with a comparison in it stands right before
  (`RefusedAt.chained_iff`); so it is behind a whole operand, as a first one would have been accepted there
  (`RefusedAt.chained`).
-/

import LambdaSyntax.Proofs.Cuts
import LambdaSyntax.Proofs.Nesting
import LambdaSyntax.Proofs.Parentheses
import LambdaSyntax.Proofs.Sites
import LambdaSyntax.Proofs.Suggestions

namespace LambdaSyntax

open Hint Parse

variable {g : Goal} {limit : Int} {ts us rest : List Token} {e : SyntaxError} {expected : KindSet} {k : Kind}

/-! ## What the hints say -/

/-- Up to the index `p` there are more right parentheses than left ones. -/
def Unmatched (ts : List Token) (p : Nat) : Prop :=
  (ts.take (p + 1)).countP (·.kind = .leftParen) < (ts.take (p + 1)).countP (·.kind = .rightParen)

/-- A comparison operator stands before the index `p`, and no left parenthesis between is left open. -/
def Chained (ts : List Token) (p : Nat) : Prop :=
  ∃ q < p, (∃ o ∈ ts[q]?, o.kind ∈ comparisons) ∧ ¬LeftOpen ((ts.take p).drop (q + 1))

/-- The tokens end with balanced ones that hold a comparison operator. -/
def EndsBalanced (ts : List Token) : Prop :=
  ∃ us, us <:+ ts ∧ Balanced us ∧ ∃ o ∈ us, o.kind ∈ comparisons

instance (ts : List Token) (p : Nat) : Decidable (Unmatched ts p) := inferInstanceAs (Decidable (_ < _))

instance (ts : List Token) (p : Nat) : Decidable (Chained ts p) := inferInstanceAs (Decidable (∃ q < p, _ ∧ _))

theorem paren_of_comparison (h : k ∈ comparisons) : k.paren = 0 := by
  revert h
  cases k <;> decide

theorem chained_iff_append {p : Nat} : Chained ts p ↔
    ∃ ls o rs, ts.take p = ls ++ o :: rs ∧ o.kind ∈ comparisons ∧ ¬LeftOpen rs := by
  constructor
  · rintro ⟨q, hq, ⟨o, ho, hk⟩, hclosed⟩
    have hget : (ts.take p)[q]? = some o := by rwa [List.getElem?_take_of_lt hq]
    obtain ⟨hlt, rfl⟩ := List.getElem?_eq_some_iff.mp hget
    refine ⟨(ts.take p).take q, (ts.take p)[q], (ts.take p).drop (q + 1), ?_, hk, hclosed⟩
    rw [← List.drop_eq_getElem_cons hlt, List.take_append_drop]
  · rintro ⟨ls, o, rs, htake, hk, hclosed⟩
    have hlt : ls.length < p := by
      have hlength := congrArg List.length htake
      simp only [List.length_take, List.length_append, List.length_cons] at hlength
      omega
    refine ⟨ls.length, hlt, ⟨o, ?_, hk⟩, ?_⟩
    · rw [Option.mem_def, ← List.getElem?_take_of_lt hlt, htake]
      simp
    · rwa [htake, List.append_cons, List.drop_left' (by simp)]

/-! ## Behind an operand -/

/-- Where a sum can be continued and a comparison is refused, one was made before, with a whole sum behind it. -/
theorem Parse.Site.endsCompared (h : Site ts expected) (hplus : .plus ∈ expected) (hk : k ∈ comparisons)
    (hrefused : k ∉ expected) : EndsCompared ts := by
  cases h with
  | expressionStart | termStart | typeStart | param | colon => exact absurd hplus (by decide)
  | expressionEnd before hu _ =>
    rcases hu.follow_expression (.inl rfl) with rfl | ⟨rfl, hends⟩
    · refine absurd ?_ hrefused
      rw [KindSet.mem_union, KindSet.mem_union]
      exact .inl (.inr hk)
    · exact hends.behind before
  | typeEnd _ hu hend =>
    obtain rfl := hu.follow_eq rfl
    rcases KindSet.mem_union.mp hplus with hplus | hplus
    · exact absurd hplus (by decide)
    · obtain rfl := KindSet.mem_single.mp hplus
      exact absurd hend (by decide)

/-! ## Refused tokens -/

namespace Parse

/-- Up to the refused token the list has the tokens that were passed. -/
theorem RefusedAt.tokens_eq (h : RefusedAt g ts e us rest) (hfinish : e.token.kind ≠ .finish) :
    ∃ more, ts = us ++ e.token :: more := by
  obtain ⟨behind, hts⟩ := Stream.body_prefix ts
  have hbody := h.body
  have htoken := h.token
  cases rest with
  | nil =>
    rw [htoken] at hfinish
    exact absurd (Stream.ofTokens ts).closing_kind hfinish
  | cons t more =>
    obtain rfl : e.token = t := htoken
    exact ⟨more ++ behind, by rw [← hts, hbody]; simp⟩

/-- The refused right parenthesis is one too many exactly where nothing is open that it could close. -/
theorem RefusedAt.unmatched_iff (h : RefusedAt g ts e us rest) (hk : e.token.kind = .rightParen) :
    Unmatched ts us.length ↔ ¬LeftOpen (ts.take us.length) := by
  obtain ⟨n, more, hmakes⟩ := h.begins
  obtain ⟨behind, rfl⟩ := h.tokens_eq (by rw [hk]; decide)
  have htake : (us ++ e.token :: behind).take (us.length + 1) = us ++ [e.token] := by
    rw [List.append_cons]
    exact List.take_left' (by simp)
  rw [Unmatched, ← unclosed_neg_iff, htake, List.take_left]
  simp only [unclosed_append, unclosed_cons, unclosed_nil, hk, Kind.paren]
  have hnonneg : 0 ≤ unclosed us := hmakes.unclosed_nonneg
  constructor
  · intro hneg
    have hbalanced : Balanced us := by
      refine ⟨by omega, ?_⟩
      rintro vs ⟨ws, rfl⟩
      rw [List.append_assoc] at hmakes
      exact hmakes.unclosed_nonneg
    exact hbalanced.not_leftOpen
  · intro hclosed
    have hle : ¬0 < unclosed us := fun hpos => hclosed (leftOpen_of_pos hpos)
    omega

/-- The tokens before a comparison that is refused are those that were passed. -/
theorem RefusedAt.take_eq (h : RefusedAt g ts e us rest) (hk : e.token.kind ∈ comparisons) :
    ts.take us.length = us := by
  have hfinish : e.token.kind ≠ .finish := by
    intro hf
    rw [hf] at hk
    exact absurd hk (by decide)
  obtain ⟨behind, rfl⟩ := h.tokens_eq hfinish
  exact List.take_left

/-- The comparison that is refused is a second one exactly behind something balanced that holds the first. -/
theorem RefusedAt.chained_iff (h : RefusedAt g ts e us rest) (hk : e.token.kind ∈ comparisons) :
    Chained ts us.length ↔ EndsBalanced (ts.take us.length) := by
  obtain ⟨n, more, hmakes⟩ := h.begins
  have hnonneg : 0 ≤ unclosed us := hmakes.unclosed_nonneg
  rw [chained_iff_append, h.take_eq hk]
  constructor
  · rintro ⟨ls, o, rs, rfl, ho, hclosed⟩
    have hoperator : ¬LeftOpen (o :: rs) := not_leftOpen_cons (Int.le_of_eq (paren_of_comparison ho)) hclosed
    obtain ⟨vs, hvs, hend, hbalanced⟩ := exists_balanced_suffix (.inr hnonneg) (List.suffix_append ls _) hoperator
    exact ⟨vs, hvs, hbalanced, o, hend.subset (by simp), ho⟩
  · rintro ⟨vs, ⟨before, rfl⟩, hbalanced, o, hmem, ho⟩
    obtain ⟨ls, rs, rfl⟩ := List.append_of_mem hmem
    have hend : rs <:+ ls ++ o :: rs := ⟨ls ++ [o], by simp⟩
    exact ⟨before ++ ls, o, rs, by simp, ho, not_leftOpen_suffix hbalanced.not_leftOpen hend⟩

/-- The comparison that is refused behind a whole operand is a second one. -/
theorem RefusedAt.chained (h : RefusedAt g ts e us rest) (hk : e.token.kind ∈ comparisons)
    (hplus : .plus ∈ e.expected) : Chained ts us.length := by
  obtain ⟨ls, o, rs, n, r, hus, ho, hr⟩ := h.site.endsCompared hplus hk h.refused
  exact chained_iff_append.mpr ⟨ls, o, rs, (h.take_eq hk).trans hus, ho, hr.balanced.not_leftOpen⟩

end Parse

/-! ## Whole texts -/

theorem readTokens_position (h : readTokens g limit ts = .error e) : ∃ p : Nat, e.position = p := by
  have hout := readTokens_outcome g limit ts
  rw [h] at hout
  cases hout with
  | stopped _ _ hr => exact ⟨_, hr.position⟩
  | leftOver _ _ hr => exact ⟨_, hr.position⟩

theorem readText_grammatical {file source : String} (h : readText g limit file source = .error (.grammatical e)) :
    readTokens g limit (Scan.ofText file source).tokens = .error e := by
  unfold readText at h
  cases htokens : tokenize file source with
  | error d =>
    rw [htokens] at h
    cases h
  | ok ts =>
    obtain rfl := tokenize_ok htokens
    cases hread : readTokens g limit (Scan.ofText file source).tokens with
    | error d =>
      simp only [htokens, hread] at h
      cases h
      rfl
    | ok t =>
      simp only [htokens, hread] at h
      cases h

/-- The hint that a right parenthesis is unmatched is true exactly where no left one before it is left open.
    The hint that comparisons do not chain is true exactly where something balanced that holds a comparison
    stands right before, and so it is where the sum before the comparison could be continued. -/
theorem readText_hints {file source : String} (h : readText g limit file source = .error (.grammatical e)) :
    ∃ p : Nat, e.position = p ∧
      (e.Suggests unmatched → (Unmatched (Scan.ofText file source).tokens p ↔
        ¬LeftOpen ((Scan.ofText file source).tokens.take p))) ∧
      (e.Suggests chained → (Chained (Scan.ofText file source).tokens p ↔
        EndsBalanced ((Scan.ofText file source).tokens.take p))) ∧
      (e.Suggests chained → .plus ∈ e.expected → Chained (Scan.ofText file source).tokens p) := by
  have hread := readText_grammatical h
  obtain ⟨p, hp⟩ := readTokens_position hread
  have hcompared (hs : e.Suggests chained) : ∃ us rest, RefusedAt g (Scan.ofText file source).tokens e us rest ∧
      us.length = p ∧ e.token.kind ∈ comparisons := by
    obtain ⟨ks, t, i, rfl, hk⟩ := SyntaxError.suggests_chained.mp hs
    obtain ⟨us, rest, hat⟩ := readTokens_site hread rfl
    exact ⟨us, rest, hat, Int.ofNat_inj.mp (hat.position.symm.trans hp), hk⟩
  refine ⟨p, hp, fun hs => ?_, fun hs => ?_, fun hs hplus => ?_⟩
  · obtain ⟨ks, t, i, rfl, hk⟩ := SyntaxError.suggests_unmatched.mp hs
    obtain ⟨us, rest, hat⟩ := readTokens_site hread rfl
    obtain rfl : us.length = p := Int.ofNat_inj.mp (hat.position.symm.trans hp)
    exact hat.unmatched_iff hk
  · obtain ⟨us, rest, hat, rfl, hk⟩ := hcompared hs
    exact hat.chained_iff hk
  · obtain ⟨us, rest, hat, rfl, hk⟩ := hcompared hs
    exact hat.chained hk hplus

theorem readText_hints_true :
    (∃ e, readText .expression 9 "f" "(a))" = .error (.grammatical e) ∧ e.Suggests unmatched ∧
      Unmatched (Scan.ofText "f" "(a))").tokens 3) ∧
    (∃ e, readText .expression 9 "f" "a < (b) == c" = .error (.grammatical e) ∧ e.Suggests chained ∧
      Chained (Scan.ofText "f" "a < (b) == c").tokens 5) ∧
    ∃ e, readText .expression 9 "f" "(a < b) + < c" = .error (.grammatical e) ∧ e.Suggests chained ∧
      .plus ∉ e.expected ∧ EndsBalanced ((Scan.ofText "f" "(a < b) + < c").tokens.take 6) := by
  refine ⟨?_, ?_, ?_⟩
  · have h : ∃ ks t, readText .expression 9 "f" "(a))" = .error (.grammatical (.unexpected ks t 3)) ∧
        t.kind = .rightParen := ⟨_, _, rfl, rfl⟩
    obtain ⟨ks, t, he, hk⟩ := h
    have hs : (SyntaxError.unexpected ks t 3).Suggests unmatched := SyntaxError.suggests_unmatched.mpr ⟨ks, t, 3, rfl, hk⟩
    obtain ⟨p, hp, htrue, -⟩ := readText_hints he
    obtain rfl : p = 3 := Int.ofNat_inj.mp hp.symm
    exact ⟨_, he, hs, (htrue hs).mpr (by decide)⟩
  · have h : ∃ ks t, readText .expression 9 "f" "a < (b) == c" = .error (.grammatical (.unexpected ks t 5)) ∧
        t.kind ∈ comparisons ∧ .plus ∈ ks := ⟨_, _, rfl, by decide, by decide⟩
    obtain ⟨ks, t, he, hk, hplus⟩ := h
    have hs : (SyntaxError.unexpected ks t 5).Suggests chained := SyntaxError.suggests_chained.mpr ⟨ks, t, 5, rfl, hk⟩
    obtain ⟨p, hp, -, -, htrue⟩ := readText_hints he
    obtain rfl : p = 5 := Int.ofNat_inj.mp hp.symm
    exact ⟨_, he, hs, htrue hs hplus⟩
  · have h : ∃ ks t, readText .expression 9 "f" "(a < b) + < c" = .error (.grammatical (.unexpected ks t 6)) ∧
        t.kind ∈ comparisons ∧ .plus ∉ ks := ⟨_, _, rfl, by decide, by decide⟩
    obtain ⟨ks, t, he, hk, hplus⟩ := h
    have hs : (SyntaxError.unexpected ks t 6).Suggests chained := SyntaxError.suggests_chained.mpr ⟨ks, t, 6, rfl, hk⟩
    obtain ⟨p, hp, -, htrue, -⟩ := readText_hints he
    obtain rfl : p = 6 := Int.ofNat_inj.mp hp.symm
    exact ⟨_, he, hs, hplus, (htrue hs).mp (by decide)⟩

/-- The hints are wrong where a group is empty and where an operand of a comparison is missing. -/
theorem readText_hints_untrue :
    (∃ e, readText .expression 83 "<string>" "()" = .error (.grammatical e) ∧ e.position = 1 ∧ e.Suggests unmatched ∧
      ¬Unmatched (Scan.ofText "<string>" "()").tokens 1) ∧
    ∃ e, readText .expression 83 "<string>" "<" = .error (.grammatical e) ∧ e.position = 0 ∧ e.Suggests chained ∧
      ¬Chained (Scan.ofText "<string>" "<").tokens 0 := by
  have hgroup : ∃ ks t, readText .expression 83 "<string>" "()" = .error (.grammatical (.unexpected ks t 1)) ∧
      t.kind = .rightParen := ⟨_, _, rfl, rfl⟩
  have hcompare : ∃ ks t, readText .expression 83 "<string>" "<" = .error (.grammatical (.unexpected ks t 0)) ∧
      t.kind ∈ comparisons := ⟨_, _, rfl, by decide⟩
  obtain ⟨ks, t, he, hk⟩ := hgroup
  obtain ⟨ks', t', he', hk'⟩ := hcompare
  exact ⟨⟨_, he, rfl, SyntaxError.suggests_unmatched.mpr ⟨ks, t, 1, rfl, hk⟩, by decide⟩,
    _, he', rfl, SyntaxError.suggests_chained.mpr ⟨ks', t', 0, rfl, hk'⟩, by decide⟩

end LambdaSyntax
