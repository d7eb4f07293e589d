/-
  LambdaSyntax.Proofs.RoundTrip — a tree is read back from its source text.

  A text that is read gives a tree that has a source text (`wellFormed_of_derives`), and took
  at least the levels that this text takes. So it is read back at the same limit, and
  any tree that has a source text is read back from some limit on
  (`readText_source_roundtrip`).
-/

import LambdaSyntax.Proofs.Correctness
import LambdaSyntax.Proofs.Fold
import LambdaSyntax.Proofs.Written

namespace LambdaSyntax

open LambdaSyntax.Tree Grammar

/-! ## Marks -/

namespace Tree

variable {σ τ : Type} (f : σ → τ)

theorem rank_map (t : Tree σ) : (t.map f).rank = t.rank := by cases t <;> rfl

theorem words_map (t : Tree σ) : (t.map f).words = t.words := by
  induction t with
  | arith _ _ _ _ ihl ihr | compare _ _ _ _ ihl ihr | apply _ _ _ ihl ihr =>
    simp only [map, words, rank_map, ihl, ihr]
  | arrow _ _ _ ihl ihr => simp only [map, words, isArrow_map, ihl, ihr]
  | cond _ _ _ _ iha ihb ihc | func _ _ _ _ _ iha ihb ihc => simp only [map, words, iha, ihb, ihc]
  | _ => rfl

theorem source_map (t : Tree σ) : (t.map f).source = t.source := by rw [source, source, words_map]

theorem isType_map (t : Tree σ) : (t.map f).isType = t.isType := by
  induction t with
  | arrow _ _ _ ihl ihr => simp only [map, isType, ihl, ihr]
  | _ => rfl

theorem isExpression_map (t : Tree σ) : (t.map f).isExpression = t.isExpression := by
  induction t with
  | arith _ _ _ _ ihl ihr | compare _ _ _ _ ihl ihr | apply _ _ _ ihl ihr =>
    simp only [map, isExpression, ihl, ihr]
  | cond _ _ _ _ iha ihb ihc => simp only [map, isExpression, iha, ihb, ihc]
  | func _ _ _ _ _ _ _ ihb => simp only [map, isExpression, isType_map, ihb]
  | _ => rfl

theorem fits_map (t : Tree σ) : (t.map f).fits = t.fits := by
  induction t with
  | arith _ _ _ _ ihl ihr | compare _ _ _ _ ihl ihr | apply _ _ _ ihl ihr | arrow _ _ _ ihl ihr =>
    simp only [map, fits, ihl, ihr]
  | cond _ _ _ _ iha ihb ihc | func _ _ _ _ _ iha ihb ihc => simp only [map, fits, iha, ihb, ihc]
  | _ => rfl

end Tree

/-! ## What is read is well formed -/

/-- The identifiers among the tokens are names. -/
def Named (ts : List Token) : Prop := ∀ t ∈ ts, t.kind = .identifier → isName t.lexeme = true

/-- A tree of the sort that a tier is of. -/
def ofSort : Tier → Tree Unit → Bool
  | .type, t | .atomicType, t => t.isType
  | _, t => t.isExpression

theorem wellFormed_of_derives {c : Tier} {n : Nat} {ts : List Token} {t : Tree Unit} (h : Derives c n ts t)
    (hts : Named ts) : ofSort c t = true ∧ t.fits = true := by
  unfold Named at hts
  induction h with
  | cond _ _ _ _ _ _ ihc ihy ihz =>
    simp only [List.forall_mem_append, List.forall_mem_cons] at hts
    have hc := ihc hts.1.1.2
    have hy := ihy hts.1.2.2
    have hz := ihz hts.2.2
    simp_all [ofSort, isExpression, fits]
  | func _ hx _ _ _ _ _ _ ihp ihr ihb =>
    simp only [List.forall_mem_append, List.forall_mem_cons] at hts
    have hname := hts.1.1.2.1 hx
    have hp := ihp hts.1.1.2.2.2
    have hr := ihr hts.1.2.2
    have hb := ihb hts.2.2
    simp_all [ofSort, isExpression, fits]
  | compare _ _ _ ihl ihr | add _ _ _ ihl ihr | mul _ _ _ ihl ihr | arrow _ _ _ ihl ihr =>
    simp only [List.forall_mem_append, List.forall_mem_cons] at hts
    have hl := ihl hts.1
    have hr := ihr hts.2.2
    simp_all [ofSort, isExpression, isType, fits]
  | apply _ _ ihf iha =>
    simp only [List.forall_mem_append] at hts
    have hf := ihf hts.1
    have ha := iha hts.2
    simp_all [ofSort, isExpression, fits]
  | comparison _ ih | sum _ ih | factor _ ih | application _ ih | term _ ih | atomicType _ ih => exact ih hts
  | group _ _ _ ih | typeGroup _ _ _ ih =>
    simp only [List.forall_mem_append, List.forall_mem_cons] at hts
    exact ih hts.1.2
  | @integer n t v _ hv =>
    have hle : (v : Int) ≤ Literal.largest := by exact_mod_cast hv.2.2
    simp [ofSort, isExpression, isLiteral, fits, Scalar.toInt, hle]
  | trueWord | falseWord => decide
  | var hk =>
    have hname := hts _ (List.mem_singleton_self _) hk
    simp [ofSort, isExpression, fits, hname]
  | int | bool => exact ⟨rfl, rfl⟩

/-! ## Reading a text back -/

variable {file source : String} {limit : Int}

theorem readText_ok {g : Goal} {u : Tree Span} :
    readText g limit file source = .ok u ↔ ∃ ts, tokenize file source = .ok ts ∧ readTokens g limit ts = .ok u := by
  unfold readText
  cases tokenize file source with
  | error e => simp
  | ok ts => cases hr : readTokens g limit ts <;> simp [hr]

theorem named_of_tokenize {ts : List Token} (h : tokenize file source = .ok ts) :
    Named (ts.takeWhile (·.kind ≠ .finish)) := by
  intro t ht hk
  rcases tokenize_faithful h t ((List.takeWhile_sublist _).subset ht) with hf | hc
  · rw [hf] at hk
    cases hk
  · rw [hk] at hc
    exact classOf?_eq_identifier.mp hc

theorem ofSort_of_readText {g : Goal} {u : Tree Span} (h : readText g limit file source = .ok u) :
    ofSort g.tier u.bare = true := by
  obtain ⟨ts, htok, hread⟩ := readText_ok.mp h
  exact (wellFormed_of_derives (derives_of_readTokens hread) (named_of_tokenize htok)).1

theorem isWellFormed_of_readText {g : Goal} {u : Tree Span} (h : readText g limit file source = .ok u) :
    u.isWellFormed = true := by
  have hw := ofSort_of_readText h
  rw [isWellFormed, Bool.or_eq_true, ← isExpression_map (fun _ => ()), ← isType_map (fun _ => ())]
  cases g with
  | expression => exact .inl hw
  | type => exact .inr hw

/-- A text is read as the tree that its words make. -/
theorem readText_of_spaced {g : Goal} {ws : List String} {t : Tree Unit} (file : String)
    (h : Spaced source.toList ws) (hd : ∀ ts, Spelled ts ws → Derives g.tier limit.toNat ts t) :
    ∃ u, readText g limit file source = .ok u ∧ u.bare = t := by
  obtain ⟨ts, l, htok, hs⟩ := tokenize_spaced file h
  have hends : (ts ++ [Token.finish l]).takeWhile (·.kind ≠ .finish) = ts := by
    have hts : ∀ t ∈ ts, decide (t.kind ≠ .finish) = true := fun t ht => decide_eq_true (hs.not_finish t ht)
    rw [List.takeWhile_append_of_pos hts]
    simp [Token.finish]
  have hts := hd ts hs
  rw [← hends] at hts
  obtain ⟨u, hu, hut⟩ := readTokens_of_derives hts
  exact ⟨u, readText_ok.mpr ⟨_, htok, hu⟩, hut⟩

/-- With as many levels as it needs a tree is read back from its source text. -/
theorem readText_source (file : String) {t : Tree Unit} (he : t.isExpression = true) (hf : t.fits = true)
    (hn : need .expression t ≤ limit.toNat) : ∃ u, readText .expression limit file t.source = .ok u ∧ u.bare = t :=
  readText_of_spaced file (spaced_joined (lexemes_words he)) fun _ hs => (written he hf).expression hn hs

/-- A tree that is read is well formed and fits, and its source text is read as the same tree
    with the same limit. Any such tree is read from its source text from some limit on. -/
theorem readText_source_roundtrip :
    (∀ limit file source t, readText .expression limit file source = .ok t →
      t.isExpression = true ∧ t.fits = true ∧
        ∀ file', ∃ u, readText .expression limit file' t.source = .ok u ∧ u.bare = t.bare) ∧
    ∀ {σ : Type} (t : Tree σ), t.isExpression = true → t.fits = true →
      ∃ least, ∀ limit ≥ least, ∀ file, ∃ u, readText .expression limit file t.source = .ok u ∧ u.bare = t.bare := by
  constructor
  · intro limit file source t h
    obtain ⟨ts, htok, hread⟩ := readText_ok.mp h
    have hd := derives_of_readTokens hread
    have hw := wellFormed_of_derives hd (named_of_tokenize htok)
    have he : t.bare.isExpression = true := hw.1
    have hf : t.bare.fits = true := hw.2
    refine ⟨by rwa [bare, isExpression_map] at he, by rwa [bare, fits_map] at hf, fun file' => ?_⟩
    have hback := readText_source file' he hf (need_le_of_derives hd)
    rwa [bare, source_map] at hback
  · intro σ t he hf
    have he' : t.bare.isExpression = true := by rwa [bare, isExpression_map]
    have hf' : t.bare.fits = true := by rwa [bare, fits_map]
    refine ⟨need .expression t.bare, fun limit hl file => ?_⟩
    have hback := readText_source file he' hf' (show need .expression t.bare ≤ limit.toNat by omega)
    rwa [bare, source_map] at hback

theorem readText_source_roundtrip_application :
    (∃ t, readText .expression 2 "" "(f) (x)" = .ok t ∧ t.isExpression = true ∧ t.fits = true ∧
      ∀ file', ∃ u, readText .expression 2 file' t.source = .ok u ∧ u.bare = t.bare) ∧
    ∃ least, ∀ limit ≥ least, ∀ file, ∃ u,
      readText .expression limit file (Tree.apply (.var "f" ()) (.var "x" ()) ()).source = .ok u ∧
        u.bare = .apply (.var "f" ()) (.var "x" ()) () :=
  ⟨⟨_, rfl, readText_source_roundtrip.1 2 "" "(f) (x)" _ rfl⟩,
    readText_source_roundtrip.2 (.apply (.var "f" ()) (.var "x" ()) ()) (by decide) (by decide)⟩

end LambdaSyntax
