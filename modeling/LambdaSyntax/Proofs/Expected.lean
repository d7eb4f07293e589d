/-
  LambdaSyntax.Proofs.Expected — a refused token is reported with exactly what could stand there.

  `Sentence` and `Viable` are about kinds alone: which rows of kinds the grammar has, and which
  can be continued to one. Neither knows of levels, nor of the values of numbers, as any token
  of a kind can be exchanged for another (`derives_retoken`).

  An error names the first token that no continuation of those before it has, and lists every
  kind that some continuation has (`Pinpoints`, `readTokens_pinpoints`).
-/

import LambdaSyntax.Proofs.Correctness
import LambdaSyntax.Proofs.Grows

namespace LambdaSyntax

namespace Grammar

def Sentence (c : Tier) (ks : List Kind) : Prop := ∃ n ts t, Derives c n ts t ∧ ts.map Token.kind = ks

/-- The kinds begin a sentence. -/
def Viable (c : Tier) (ks : List Kind) : Prop := ∃ more, Sentence c (ks ++ more)

end Grammar

namespace SyntaxError

/-- Was a token refused, rather than a number or the depth? -/
def refuses : SyntaxError → Bool
  | unexpected .. | unexpectedEnd .. => true
  | _ => false

def isEnd : SyntaxError → Bool
  | unexpectedEnd .. => true
  | _ => false

end SyntaxError

namespace Parse

open Grammar

variable {c : Tier} {n : Nat} {ts us : List Token} {k : Kind}

/-! ## Tokens of the same kinds -/

/-- The same kinds, and every integer of the first list has a value. -/
structure Alike (us ts : List Token) : Prop where
  kinds : us.map Token.kind = ts.map Token.kind
  passable : ∀ t ∈ us, Passable t

theorem Alike.append {ls rs : List Token} (h : Alike us (ls ++ rs)) :
    ∃ as bs, us = as ++ bs ∧ Alike as ls ∧ Alike bs rs := by
  have hk := h.kinds
  have hp := h.passable
  rw [List.map_append] at hk
  obtain ⟨as, bs, rfl, ha, hb⟩ := List.map_eq_append_iff.mp hk
  rw [List.forall_mem_append] at hp
  exact ⟨as, bs, rfl, ⟨ha, hp.1⟩, ⟨hb, hp.2⟩⟩

theorem Alike.cons {o : Token} {rs : List Token} (h : Alike us (o :: rs)) :
    ∃ o' bs, us = o' :: bs ∧ o'.kind = o.kind ∧ Alike bs rs := by
  have hp := h.passable
  obtain ⟨o', bs, rfl, ho, hb⟩ := List.map_eq_cons_iff.mp h.kinds
  rw [List.forall_mem_cons] at hp
  exact ⟨o', bs, rfl, ho, ⟨hb, hp.2⟩⟩

theorem Alike.joined {o : Token} {ls rs : List Token} (h : Alike us (ls ++ o :: rs)) :
    ∃ as o' bs, us = as ++ o' :: bs ∧ Alike as ls ∧ o'.kind = o.kind ∧ Alike bs rs := by
  obtain ⟨as, vs, rfl, ha, hv⟩ := h.append
  obtain ⟨o', bs, rfl, ho, hb⟩ := hv.cons
  exact ⟨as, o', bs, rfl, ha, ho, hb⟩

theorem Alike.single {o : Token} (h : Alike us [o]) : ∃ o', us = [o'] ∧ o'.kind = o.kind ∧ Passable o' := by
  have hp := h.passable
  obtain ⟨o', bs, rfl, ho, hb⟩ := h.cons
  obtain rfl := List.map_eq_nil_iff.mp hb.kinds
  exact ⟨o', rfl, ho, hp o' (by simp)⟩

theorem derives_retoken {t : Tree Unit} (h : Derives c n ts t) (hu : Alike us ts) : ∃ t', Derives c n us t' := by
  induction h generalizing us with
  | cond hi _ hth _ hel _ ihc ihy ihz =>
    obtain ⟨_, el', cs, rfl, hu, hel', hc⟩ := hu.joined
    obtain ⟨_, th', bs, rfl, hu, hth', hb⟩ := hu.joined
    obtain ⟨i', as, rfl, hi', ha⟩ := hu.cons
    obtain ⟨a, ha⟩ := ihc ha
    obtain ⟨b, hb⟩ := ihy hb
    obtain ⟨c, hc⟩ := ihz hc
    exact ⟨_, .cond (hi'.trans hi) ha (hth'.trans hth) hb (hel'.trans hel) hc⟩
  | func hf hx h₁ _ h₂ _ his _ ihp ihr ihb =>
    obtain ⟨_, is', cs, rfl, hu, his', hc⟩ := hu.joined
    obtain ⟨_, c₂', bs, rfl, hu, h₂', hb⟩ := hu.joined
    obtain ⟨fn', _, rfl, hf', hu⟩ := hu.cons
    obtain ⟨x', _, rfl, hx', hu⟩ := hu.cons
    obtain ⟨c₁', as, rfl, h₁', ha⟩ := hu.cons
    obtain ⟨a, ha⟩ := ihp ha
    obtain ⟨b, hb⟩ := ihr hb
    obtain ⟨c, hc⟩ := ihb hc
    exact ⟨_, .func (hf'.trans hf) (hx'.trans hx) (h₁'.trans h₁) ha (h₂'.trans h₂) hb (his'.trans his) hc⟩
  | comparison _ ih =>
    obtain ⟨t, h⟩ := ih hu
    exact ⟨t, .comparison h⟩
  | compare _ ho _ ihl ihr =>
    obtain ⟨ls, o', rs, rfl, hl, ho', hr⟩ := hu.joined
    obtain ⟨l, hl⟩ := ihl hl
    obtain ⟨r, hr⟩ := ihr hr
    exact ⟨_, .compare hl (ho' ▸ ho) hr⟩
  | sum _ ih =>
    obtain ⟨t, h⟩ := ih hu
    exact ⟨t, .sum h⟩
  | add _ ho _ ihl ihr =>
    obtain ⟨ls, o', rs, rfl, hl, ho', hr⟩ := hu.joined
    obtain ⟨l, hl⟩ := ihl hl
    obtain ⟨r, hr⟩ := ihr hr
    exact ⟨_, .add hl (ho' ▸ ho) hr⟩
  | factor _ ih =>
    obtain ⟨t, h⟩ := ih hu
    exact ⟨t, .factor h⟩
  | mul _ ho _ ihl ihr =>
    obtain ⟨ls, o', rs, rfl, hl, ho', hr⟩ := hu.joined
    obtain ⟨l, hl⟩ := ihl hl
    obtain ⟨r, hr⟩ := ihr hr
    exact ⟨_, .mul hl (ho' ▸ ho) hr⟩
  | application _ ih =>
    obtain ⟨t, h⟩ := ih hu
    exact ⟨t, .application h⟩
  | apply _ _ ihf iha =>
    obtain ⟨fs, as, rfl, hf, ha⟩ := hu.append
    obtain ⟨f, hf⟩ := ihf hf
    obtain ⟨a, ha⟩ := iha ha
    exact ⟨_, .apply hf ha⟩
  | term _ ih =>
    obtain ⟨t, h⟩ := ih hu
    exact ⟨t, .term h⟩
  | integer hk _ =>
    obtain ⟨o, rfl, ho, hp⟩ := hu.single
    obtain ⟨v, hv⟩ := hp.2 (ho.trans hk)
    exact ⟨_, .integer (ho.trans hk) hv⟩
  | trueWord hk =>
    obtain ⟨o, rfl, ho, -⟩ := hu.single
    exact ⟨_, .trueWord (ho.trans hk)⟩
  | falseWord hk =>
    obtain ⟨o, rfl, ho, -⟩ := hu.single
    exact ⟨_, .falseWord (ho.trans hk)⟩
  | var hk =>
    obtain ⟨o, rfl, ho, -⟩ := hu.single
    exact ⟨_, .var (ho.trans hk)⟩
  | group hl _ hr ih =>
    obtain ⟨_, r', _, rfl, hu, hr', hnil⟩ := hu.joined
    obtain ⟨l', ts, rfl, hl', ht⟩ := hu.cons
    obtain rfl := List.map_eq_nil_iff.mp hnil.kinds
    obtain ⟨t, h⟩ := ih ht
    exact ⟨t, .group (hl'.trans hl) h (hr'.trans hr)⟩
  | arrow _ ho _ ihp ihr =>
    obtain ⟨ps, o', rs, rfl, hp, ho', hr⟩ := hu.joined
    obtain ⟨p, hp⟩ := ihp hp
    obtain ⟨r, hr⟩ := ihr hr
    exact ⟨_, .arrow hp (ho'.trans ho) hr⟩
  | atomicType _ ih =>
    obtain ⟨t, h⟩ := ih hu
    exact ⟨t, .atomicType h⟩
  | int hk =>
    obtain ⟨o, rfl, ho, -⟩ := hu.single
    exact ⟨_, .int (ho.trans hk)⟩
  | bool hk =>
    obtain ⟨o, rfl, ho, -⟩ := hu.single
    exact ⟨_, .bool (ho.trans hk)⟩
  | typeGroup hl _ hr ih =>
    obtain ⟨_, r', _, rfl, hu, hr', hnil⟩ := hu.joined
    obtain ⟨l', ts, rfl, hl', ht⟩ := hu.cons
    obtain rfl := List.map_eq_nil_iff.mp hnil.kinds
    obtain ⟨t, h⟩ := ih ht
    exact ⟨t, .typeGroup (hl'.trans hl) h (hr'.trans hr)⟩

/-! ## Sentences and tokens -/

theorem Makes.sentence (h : Makes c n ts) : Sentence c (ts.map Token.kind) := by
  obtain ⟨t, h⟩ := h
  exact ⟨n, ts, t, h, rfl⟩

/-- A sentence is made by any tokens of its kinds. -/
theorem makes_of_sentence (h : Sentence c (us.map Token.kind)) (hu : ∀ t ∈ us, Passable t) : ∃ n, Makes c n us := by
  obtain ⟨n, ts, t, h, hk⟩ := h
  obtain ⟨t', h'⟩ := derives_retoken h ⟨hk.symm, hu⟩
  exact ⟨n, t', h'⟩

theorem not_finish_of_sentence {ks : List Kind} (h : Sentence c ks) : ∀ k ∈ ks, k ≠ .finish := by
  obtain ⟨n, ts, t, h, rfl⟩ := h
  intro k hk
  obtain ⟨t', ht', rfl⟩ := List.mem_map.mp hk
  exact (Makes.passable ⟨t, h⟩ t' ht').1

theorem sentence_iff_makes (hu : ∀ t ∈ us, Passable t) : Sentence c (us.map Token.kind) ↔ ∃ n, Makes c n us :=
  ⟨fun h => makes_of_sentence h hu, fun ⟨_, h⟩ => h.sentence⟩

theorem viable_iff_grows (hu : ∀ t ∈ us, Passable t) : Viable c (us.map Token.kind ++ [k]) ↔ Grows c us k := by
  constructor
  · intro h
    obtain ⟨more, hs⟩ := h
    have hne := not_finish_of_sentence hs
    have hkinds : us.map Token.kind ++ [k] ++ more = (us ++ sample k :: more.map sample).map Token.kind := by
      have hmore : (more.map sample).map Token.kind = more := by
        rw [List.map_map]
        exact List.map_id more
      simp [hmore, sample]
    have hp : ∀ t ∈ us ++ sample k :: more.map sample, Passable t := by
      intro t ht
      rcases List.mem_append.mp ht with ht | ht
      · exact hu t ht
      · obtain ⟨j, hj, rfl⟩ := List.mem_map.mp (show t ∈ (k :: more).map sample from ht)
        refine passable_sample (hne j ?_)
        rw [List.append_assoc]
        exact List.mem_append_right _ hj
    obtain ⟨n, hm⟩ := makes_of_sentence (hkinds ▸ hs) hp
    exact ⟨n, more.map sample, hm⟩
  · intro h
    obtain ⟨n, vs, hm⟩ := h
    exact ⟨vs.map Token.kind, by simpa [sample] using hm.sentence⟩

/-! ## Errors -/

/-- What the error `e` at the index `p` says of the tokens `ts`, completed by their end. -/
structure Pinpoints (c : Tier) (ts : List Token) (e : SyntaxError) (p : Nat) : Prop where
  position : e.position = p
  token : (Stream.ofTokens ts).tokens[p]? = some e.token
  before : ∀ t ∈ (Stream.ofTokens ts).tokens.take p, t.kind ≠ .finish
  viable : Viable c (((Stream.ofTokens ts).tokens.take p).map Token.kind)
  expected (k : Kind) : k ∈ e.expected ↔ Viable c (((Stream.ofTokens ts).tokens.take p).map Token.kind ++ [k]) ∨
    k = .finish ∧ Sentence c (((Stream.ofTokens ts).tokens.take p).map Token.kind)
  refused : e.token.kind ∉ e.expected
  isEnd : e.isEnd = true ↔ e.token.kind = .finish

theorem Raises.facts {S : Setting} {t : Token} {i : Nat} {E : KindSet} {e : SyntaxError}
    (h : Raises S t i (.refused E) e) :
    e.position = i ∧ e.token = t ∧ e.expected = E ∧ t.kind ∉ E ∧ (e.isEnd = true ↔ t.kind = .finish) := by
  cases h with
  | unexpected hk hf => exact ⟨rfl, rfl, rfl, hk, by simp [SyntaxError.isEnd, hf]⟩
  | unexpectedEnd hk hf => exact ⟨rfl, rfl, rfl, hk, by simp [SyntaxError.isEnd, hf]⟩

variable {S : Setting} {rest : List Token} {E : KindSet} {e : SyntaxError}

theorem pinpoints (hclosing : S.closing = (Stream.ofTokens ts).closing) (hb : (Stream.ofTokens ts).body = us ++ rest)
    (hu : ∀ t ∈ us, Passable t) {more : List Token} (hv : Makes c n (us ++ more))
    (hE : ∀ k, k ∈ E ↔ Grows c us k ∨ k = .finish ∧ ∃ n, Makes c n us)
    (hr : Raises S (rest.headD S.closing) us.length (.refused E) e) : Pinpoints c ts e us.length := by
  obtain ⟨hpos, htok, hexp, hnot, hend⟩ := hr.facts
  have htokens : (Stream.ofTokens ts).tokens = us ++ (rest ++ [(Stream.ofTokens ts).closing]) := by
    rw [← List.append_assoc, ← hb]
    rfl
  have htake : (Stream.ofTokens ts).tokens.take us.length = us := by rw [htokens, List.take_left]
  refine ⟨hpos, ?_, ?_, ?_, ?_, ?_, ?_⟩
  · rw [htokens, htok, List.getElem?_append_right (Nat.le_refl _), Nat.sub_self, hclosing]
    cases rest <;> rfl
  · rw [htake]
    exact fun t ht => (hu t ht).1
  · rw [htake]
    exact ⟨more.map Token.kind, by simpa using hv.sentence⟩
  · intro k
    rw [htake, hexp, hE k, viable_iff_grows hu, sentence_iff_makes hu]
  · rw [htok, hexp]
    exact hnot
  · rw [htok]
    exact hend

/-- A refused token is the first that cannot stand where it does, and the kinds that are
    reported are all those that can. -/
theorem readTokens_pinpoints (g : Goal) (limit : Int) (ts : List Token) (e : SyntaxError)
    (h : readTokens g limit ts = .error e) (he : e.refuses = true) : ∃ p, Pinpoints g.tier ts e p := by
  have hout := readTokens_outcome g limit ts
  rw [h] at hout
  cases hout with
  | @stopped us rest r e hb hstop hr =>
    cases r with
    | refused E =>
      obtain ⟨k, hk⟩ := hstop.exists_mem rfl
      obtain ⟨n, vs, hv⟩ := hstop.grows_iff.mp hk
      refine ⟨us.length, pinpoints rfl hb hstop.passable hv ?_ hr⟩
      intro k
      rw [hstop.grows_iff, or_iff_left]
      intro h
      obtain ⟨-, n, hm⟩ := h
      exact hstop.not_makes hm
    | badNumber =>
      cases hr with
      | badNumber _ hi => rcases Literal.integer_error hi with rfl | ⟨reason, rfl⟩ <;> cases he
    | tooDeep =>
      cases hr
      cases he
  | @leftOver us rest u f e hb hread hr =>
    have hm := hread.makes
    have hv : Makes g.tier limit.toNat (us ++ []) := by rwa [List.append_nil]
    refine ⟨us.length, pinpoints rfl hb hread.passable hv ?_ hr⟩
    intro k
    rw [KindSet.mem_union, KindSet.mem_single, hread.grows_iff, and_iff_left ⟨_, hm⟩]

theorem readTokens_pinpoints_open_group :
    readTokens .expression 2 [sample .leftParen, sample .identifier] =
        .error (.unexpectedEnd (operandFollow ∪ Hint.comparisons ∪ .single .rightParen) (.finish ⟨"", 1, 2, 1⟩) 2) ∧
      ∃ p, Pinpoints .expression [sample .leftParen, sample .identifier]
        (.unexpectedEnd (operandFollow ∪ Hint.comparisons ∪ .single .rightParen) (.finish ⟨"", 1, 2, 1⟩) 2) p :=
  ⟨rfl, readTokens_pinpoints .expression 2 _ _ rfl rfl⟩

end Parse

end LambdaSyntax
