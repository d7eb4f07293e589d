/-
  LambdaSyntax.Proofs.Endings — where the end of the input is does not matter for what is read.

  A list of tokens may come with its end or without it. Without it the end is put behind the
  lexeme of the last token. In a text that is cut without errors nothing but blanks is left
  there (`Cuts.endOf_body`), so the two ends are at one place exactly when the text does not end
  in a blank.

  A reading passes no end and takes no mark from one. With either end it has the same tokens
  to pass, and the outcomes are the same but for the error that is noticed at the end itself: it
  says the same of another place (`readTokens_sameButEnd`).
-/

import LambdaSyntax.Proofs.Coverage
import LambdaSyntax.Proofs.Layout
import LambdaSyntax.Proofs.Lookahead

namespace LambdaSyntax

variable {file : String} {p : Position} {cs w : List Char} {s : Scan} {t : Token} {ts xs rest : List Token}

/-! ## The end of the last lexeme -/

theorem shift_within (p : Position) (file : String) (hw : ∀ c ∈ w, Text.isBlank c = false) :
    (p.within file).shift w.length = (p.pass w).within file := by
  induction w generalizing p with
  | nil => simp [Location.shift, Position.pass]
  | cons c w ih =>
    rw [List.forall_mem_cons] at hw
    have hc : c ≠ '\n' := by
      rintro rfl
      cases hw.1
    have hstep : p.step c = ⟨p.offset + 1, p.line, p.column + 1⟩ := if_neg hc
    have hpass : p.pass (c :: w) = (p.step c).pass w := rfl
    rw [hpass, ← ih _ hw.2, hstep]
    simp only [Location.shift, Position.within, List.length_cons, Location.mk.injEq, true_and]
    omega

namespace Stream

theorem endOf_cons (h : ts ≠ []) : endOf (t :: ts) = endOf ts := by
  obtain ⟨u, us, rfl⟩ := List.exists_cons_of_ne_nil h
  rfl

theorem ofTokens_of_not_finish (h : ∀ t ∈ ts, t.kind ≠ .finish) :
    ofTokens ts = ⟨ts, .finish (endOf ts), rfl⟩ := by
  rcases List.eq_nil_or_concat ts with rfl | ⟨xs, t, rfl⟩
  · rfl
  · rw [List.concat_eq_append] at h ⊢
    exact ofTokens_open (h t (by simp))

end Stream

namespace Scan

theorem Cuts.blank_of_body_nil (h : Cuts file p cs s) (he : s.errors = []) (hb : s.body = []) :
    ∀ c ∈ cs, Text.isBlank c = true := by
  induction h with
  | finish => simp
  | blank hc _ ih => exact List.forall_mem_cons.mpr ⟨hc, ih he hb⟩
  | lexeme hl => rw [body_addToken (kind_ne_finish (classOf?_first? hl))] at hb; cases hb
  | bad => cases he

/-- Behind the last lexeme, where the end would be put, there are blanks. -/
theorem Cuts.endOf_body (h : Cuts file p cs s) (he : s.errors = []) (hb : s.body ≠ []) :
    ∃ v bs, cs = v ++ bs ∧ v ≠ [] ∧ (∀ c ∈ v.getLast?, Text.isBlank c = false) ∧ (∀ c ∈ bs, Text.isBlank c = true) ∧
      Stream.endOf s.body = (p.pass v).within file := by
  induction h with
  | finish => exact absurd rfl hb
  | @blank p c cs s hc _ ih =>
    obtain ⟨v, bs, rfl, hv, hlast, hbs, hend⟩ := ih he hb
    refine ⟨c :: v, bs, rfl, by simp, ?_, hbs, hend⟩
    obtain ⟨d, ds, rfl⟩ := List.exists_cons_of_ne_nil hv
    rwa [List.getLast?_cons_cons]
  | @lexeme p l more s hl hmore ih =>
    have hclass := classOf?_first? hl
    have hlex := not_blank_of_class hclass
    rw [body_addToken (kind_ne_finish hclass)]
    by_cases hs : s.body = []
    · have hend : Stream.endOf [l.token (p.within file)] = (p.within file).shift l.chars.length := by
        simp [Stream.endOf, Lexeme.token]
      refine ⟨l.chars, more, rfl, ne_nil_of_class hclass, ?_, hmore.blank_of_body_nil he hs, ?_⟩
      · exact fun c hc => hlex c (List.mem_of_getLast? hc)
      · rw [hs, hend, shift_within p file hlex]
    · obtain ⟨v, bs, rfl, hv, hlast, hbs, hend⟩ := ih he hs
      refine ⟨l.chars ++ v, bs, by simp, by simp [hv], ?_, hbs, ?_⟩
      · rwa [List.getLast?_append_of_ne_nil _ hv]
      · rw [Stream.endOf_cons hs, hend, pass_append]
  | bad => cases he

end Scan

/-! ## Readings with different ends -/

theorem SyntaxError.like_refl (e : SyntaxError) : e.Like e := by
  cases e <;> constructor <;> exact ⟨rfl, rfl⟩

namespace Parse

/-- One tree, or errors that say the same and are the same unless both are noticed at the end. -/
inductive SameButEnd : Except SyntaxError Marked → Except SyntaxError Marked → Prop
  | tree {u : Marked} : SameButEnd (.ok u) (.ok u)
  | error {d e : SyntaxError} : d.SaysSame e → d = e ∨ d.token.kind = .finish ∧ e.token.kind = .finish →
      SameButEnd (.error d) (.error e)

variable {S T : Setting} {i : Nat} {r : Reason} {e : SyntaxError} {g : Goal} {limit : Int}

/-- With another end behind the same tokens there is the same error, or the same is said of the other end. -/
theorem Raises.other_end (h : Raises S (rest.headD S.closing) i r e) (hlike : S.Like T)
    (hend : S.closing.kind = .finish) : ∃ d, Raises T (rest.headD T.closing) i r d ∧ SameButEnd (.error d) (.error e) := by
  cases rest with
  | cons t rest => exact ⟨e, h.of_limit hlike.limit.symm, .error e.like_refl.saysSame (.inl rfl)⟩
  | nil =>
    have hc : T.closing.Like S.closing := ⟨hlike.closing.kind.symm, hlike.closing.lexeme.symm⟩
    have hkind : T.closing.kind = .finish := hc.kind.trans hend
    cases h with
    | unexpected _ hf => exact absurd hend hf
    | @unexpectedEnd expected hk _ =>
      have hlast : SyntaxError.Like (.unexpectedEnd expected T.closing i) (.unexpectedEnd expected S.closing i) :=
        .unexpectedEnd hc
      have hk' : T.closing.kind ∉ expected := hc.kind.symm ▸ hk
      exact ⟨_, .unexpectedEnd hk' hkind, .error hlast.saysSame (.inr ⟨hkind, hend⟩)⟩
    | badNumber hk _ => cases hk.symm.trans hend
    | tooDeep =>
      have hlast : SyntaxError.Like (.tooDeep T.closing i S.limit) (.tooDeep S.closing i S.limit) := .tooDeep hc
      refine ⟨.tooDeep T.closing i S.limit, ?_, .error hlast.saysSame (.inr ⟨hkind, hend⟩)⟩
      rw [hlike.limit]
      exact .tooDeep

theorem readTokens_other_end (hbody : (Stream.ofTokens xs).body = (Stream.ofTokens ts).body)
    (hclosing : (Stream.ofTokens ts).closing.Like (Stream.ofTokens xs).closing) :
    SameButEnd (readTokens g limit xs) (readTokens g limit ts) := by
  have hS : (settingOf (.ofTokens ts) limit).Like (settingOf (.ofTokens xs) limit) := ⟨hclosing, rfl⟩
  have hend : (settingOf (.ofTokens ts) limit).closing.kind = .finish := (Stream.ofTokens ts).closing_kind
  have hout := readTokens_outcome g limit ts
  generalize readTokens g limit ts = x at hout ⊢
  cases hout with
  | @read us rest u f hb hr hfin =>
    have hfin' : (rest.headD (Stream.ofTokens xs).closing).kind = .finish := by
      cases rest with
      | nil => exact (Stream.ofTokens xs).closing_kind
      | cons t rest => exact hfin
    rw [Outcome.readTokens_eq (.read (hbody.trans hb) hr hfin')]
    exact .tree
  | stopped hb hs he =>
    obtain ⟨d, hd, hsame⟩ := he.other_end hS hend
    rwa [Outcome.readTokens_eq (.stopped (hbody.trans hb) hs hd)]
  | leftOver hb hr he =>
    obtain ⟨d, hd, hsame⟩ := he.other_end hS hend
    rwa [Outcome.readTokens_eq (.leftOver (hbody.trans hb) hr hd)]

end Parse

open Parse

/-! ## Texts -/

theorem errors_of_tokenize {file source : String} (h : tokenize file source = .ok ts) :
    (Scan.ofText file source).errors = [] := by
  cases he : (Scan.ofText file source).errors with
  | nil => rfl
  | cons e es =>
    rw [tokenize_eq_error.mpr ⟨es, he⟩] at h
    cases h

/-- The two ends are at one place exactly when nothing stands behind the last lexeme. -/
theorem endOf_body_iff {file source : String} (he : (Scan.ofText file source).errors = [])
    (hb : (Scan.ofText file source).body ≠ []) :
    Stream.endOf (Scan.ofText file source).body = (Position.origin.pass source.toList).within file ↔
      ∀ c ∈ source.toList.getLast?, Text.isBlank c = false := by
  obtain ⟨v, bs, hsource, -, hlast, hbs, hend⟩ :=
    (Scan.cuts_scanFrom file .origin source.toList).endOf_body he hb
  have hbody : Stream.endOf (Scan.ofText file source).body = _ := hend
  rw [hbody, hsource]
  rcases List.eq_nil_or_concat bs with rfl | ⟨ds, b, rfl⟩
  · simpa using hlast
  · rw [List.concat_eq_append] at hbs ⊢
    constructor
    · intro h
      have hoffset := congrArg Location.offset h
      simp [Position.within, Scan.offset_pass] at hoffset
      omega
    · intro h
      have hblank := hbs b (by simp)
      rw [h b (by simp)] at hblank
      cases hblank

/-- The tokens of a text are read alike with their own end and with one that is put behind the last
    of them, and both ends are the same exactly when the text does not end in a blank. -/
theorem readTokens_sameButEnd (g : Goal) (limit : Int) {file source : String} (h : tokenize file source = .ok ts)
    (hne : ∃ t ∈ ts, t.kind ≠ .finish) :
    SameButEnd (readTokens g limit ts.dropLast) (readTokens g limit ts) ∧ (Stream.ofTokens ts).tokens = ts ∧
    ((Stream.ofTokens ts.dropLast).tokens = ts ↔ ∀ c ∈ source.toList.getLast?, Text.isBlank c = false) := by
  have herrors := errors_of_tokenize h
  obtain rfl := tokenize_ok h
  have hended := (Scan.cuts_scanFrom file .origin source.toList).ended
  change (Scan.ofText file source).tokens = (Scan.ofText file source).body ++ _ at hended
  have hbody : ∀ t ∈ (Scan.ofText file source).body, t.kind ≠ .finish := by simp [Scan.body]
  have hb : (Scan.ofText file source).body ≠ [] := by
    obtain ⟨t, ht, hk⟩ := hne
    exact List.ne_nil_of_mem (List.mem_filter.mpr ⟨ht, by simpa using hk⟩)
  have hwith : Stream.ofTokens ((Scan.ofText file source).body ++
      [.finish ((Position.origin.pass source.toList).within file)]) = ⟨(Scan.ofText file source).body, _, rfl⟩ :=
    Stream.ofTokens_closed rfl
  have hwithout := Stream.ofTokens_of_not_finish hbody
  rw [hended, List.dropLast_concat]
  refine ⟨readTokens_other_end ?_ ?_, ?_, ?_⟩
  · rw [hwith, hwithout]
  · rw [hwith, hwithout]
    exact Stream.finish_like _ _
  · rw [hwith]
    rfl
  · rw [hwithout, ← endOf_body_iff herrors hb]
    simp [Stream.tokens, Token.finish]

theorem readTokens_sameButEnd_line : ∃ ts, tokenize "f" "(a\n" = .ok ts ∧ (∃ t ∈ ts, t.kind ≠ .finish) ∧
    SameButEnd (readTokens .expression 2 ts.dropLast) (readTokens .expression 2 ts) ∧ (Stream.ofTokens ts).tokens = ts ∧
    ((Stream.ofTokens ts.dropLast).tokens = ts ↔ ∀ c ∈ "(a\n".toList.getLast?, Text.isBlank c = false) := by
  have hne : ∃ t ∈ (Scan.ofText "f" "(a\n").tokens, t.kind ≠ .finish := by decide
  exact ⟨_, rfl, hne, readTokens_sameButEnd .expression 2 rfl hne⟩

end LambdaSyntax
