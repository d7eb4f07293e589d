/-
  LambdaSyntax.Proofs.Cuts — how a text is cut into tokens.

  `Cuts file p cs s`: the text `cs`, which starts at `p`, is cut into the tokens and errors of `s`,
  one piece after another: a blank is dropped, the longest lexeme that opens what is left is a
  token, and a character that neither is blank nor opens a lexeme is an error. The scan is the
  one way to cut a text (`cuts_scanFrom`, `Cuts.eq_scanFrom`), so what holds of every such cut
  holds of the scan.

  `Spaced cs ws`: the text is the words `ws`, with blanks where they would otherwise run into one
  another. Such a text is cut into its words (`tokenize_spaced`).
-/

import LambdaSyntax.Proofs.Words
import LambdaSyntax.Token.Scan

namespace LambdaSyntax

variable {file : String} {p : Position} {c : Char} {cs rest : List Char} {k : Kind} {s : Scan}

namespace Scan

inductive Cuts (file : String) : Position → List Char → Scan → Prop
  | finish {p : Position} : Cuts file p [] ⟨[.finish (p.within file)], []⟩
  | blank {p : Position} {c : Char} {cs : List Char} {s : Scan} :
      Text.isBlank c = true → Cuts file (p.step c) cs s → Cuts file p (c :: cs) s
  | lexeme {p : Position} {l : Lexeme} {rest : List Char} {s : Scan} :
      Lexeme.first? (l.chars ++ rest) = some l → Cuts file (p.pass l.chars) rest s →
      Cuts file p (l.chars ++ rest) (s.addToken (l.token (p.within file)))
  | bad {p : Position} {c : Char} {cs : List Char} {s : Scan} :
      Text.isBlank c = false → Lexeme.first? (c :: cs) = none → Cuts file (p.step c) cs s →
      Cuts file p (c :: cs) (s.addError ⟨c, p.within file⟩)

theorem scanFrom_skip (cs rest : List Char) (p : Position) :
    scanFrom file cs.length p (cs ++ rest) = scanFrom file 0 (p.pass cs) rest := by
  induction cs generalizing p with
  | nil => rfl
  | cons c cs ih => exact ih (p.step c)

theorem scanFrom_lexeme {l : Lexeme} (h : Lexeme.first? (l.chars ++ rest) = some l) :
    scanFrom file 0 p (l.chars ++ rest) = (scanFrom file 0 (p.pass l.chars) rest).addToken (l.token (p.within file)) := by
  obtain ⟨k, cs⟩ := l
  have hclass : classOf? cs = some k := classOf?_first? h
  cases cs with
  | nil => cases hclass
  | cons c cs =>
    have hb : Text.isBlank c = false := not_blank_of_class hclass c (by simp)
    have hskip : scanFrom file cs.length (p.step c) (cs ++ rest) = _ := scanFrom_skip cs rest (p.step c)
    simp only [List.cons_append] at h ⊢
    rw [scanFrom, if_neg (by simp [hb]), h]
    exact congrArg (addToken _) hskip

theorem cuts_scanFrom (file : String) (p : Position) (cs : List Char) : Cuts file p cs (scanFrom file 0 p cs) := by
  -- a lexeme takes several characters at once, so the induction is on the length
  induction hn : cs.length using Nat.strongRecOn generalizing p cs with
  | ind n ih =>
    subst hn
    cases cs with
    | nil => exact .finish
    | cons c cs =>
      by_cases hb : Text.isBlank c = true
      · rw [scanFrom, if_pos hb]
        exact .blank hb (ih _ (by simp) _ cs rfl)
      · cases hl : Lexeme.first? (c :: cs) with
        | none =>
          rw [scanFrom, if_neg hb, hl]
          exact .bad (by simpa using hb) hl (ih _ (by simp) _ cs rfl)
        | some l =>
          obtain ⟨rest, hrest⟩ := first?_prefix hl
          have hpos := List.length_pos_iff.mpr (ne_nil_of_class (classOf?_first? hl))
          rw [← hrest] at hl ⊢
          rw [scanFrom_lexeme hl]
          refine .lexeme hl (ih _ ?_ _ rest rfl)
          rw [← hrest, List.length_append]
          omega

theorem Cuts.eq_scanFrom (h : Cuts file p cs s) : s = scanFrom file 0 p cs := by
  induction h with
  | finish => rfl
  | blank hb _ ih => rw [scanFrom, if_pos hb, ih]
  | lexeme hl _ ih => rw [scanFrom_lexeme hl, ih]
  | bad hb hl _ ih => rw [scanFrom, if_neg (by simp [hb]), hl, ih]

end Scan

/-! ## Tokens and their lexemes -/

/-- The tokens have these lexemes, and each has the kind of its lexeme. -/
structure Spelled (ts : List Token) (ws : List String) : Prop where
  words : ts.map Token.lexeme = ws
  kinds : ∀ t ∈ ts, classOf? t.lexeme.toList = some t.kind

section Spelled

variable {ts : List Token} {w : String} {ws vs : List String}

theorem Spelled.nil (h : Spelled ts []) : ts = [] := List.map_eq_nil_iff.mp h.words

theorem Spelled.append (h : Spelled ts (ws ++ vs)) :
    ∃ as bs, ts = as ++ bs ∧ Spelled as ws ∧ Spelled bs vs := by
  have hk := h.kinds
  obtain ⟨as, bs, rfl, ha, hb⟩ := List.map_eq_append_iff.mp h.words
  rw [List.forall_mem_append] at hk
  exact ⟨as, bs, rfl, ⟨ha, hk.1⟩, ⟨hb, hk.2⟩⟩

theorem Spelled.cons (h : Spelled ts (w :: ws)) (hw : classOf? w.toList = some k) :
    ∃ t us, ts = t :: us ∧ t.lexeme = w ∧ t.kind = k ∧ Spelled us ws := by
  have hk := h.kinds
  obtain ⟨t, us, rfl, ht, hu⟩ := List.map_eq_cons_iff.mp h.words
  rw [List.forall_mem_cons] at hk
  have hkind : some t.kind = some k := by rw [← hk.1, ht, hw]
  exact ⟨t, us, rfl, ht, Option.some.inj hkind, ⟨hu, hk.2⟩⟩

theorem Spelled.single (h : Spelled ts [w]) (hw : classOf? w.toList = some k) :
    ∃ t, ts = [t] ∧ t.lexeme = w ∧ t.kind = k := by
  obtain ⟨t, us, rfl, ht, hk, hu⟩ := h.cons hw
  obtain rfl := hu.nil
  exact ⟨t, rfl, ht, hk⟩

/-- Spelled tokens hold no end. -/
theorem Spelled.not_finish (h : Spelled ts ws) : ∀ t ∈ ts, t.kind ≠ .finish := by
  intro t ht hf
  have hk := h.kinds t ht
  rw [hf] at hk
  exact classOf?_ne_finish hk

end Spelled

namespace Scan

/-- Every token of a text has the kind of its lexeme. -/
theorem Cuts.faithful (h : Cuts file p cs s) :
    ∀ t ∈ s.tokens, t.kind = .finish ∨ classOf? t.lexeme.toList = some t.kind := by
  induction h with
  | finish =>
    intro t ht
    obtain rfl := List.mem_singleton.mp ht
    exact .inl rfl
  | blank _ _ ih | bad _ _ _ ih => exact ih
  | lexeme hl _ ih =>
    refine List.forall_mem_cons.mpr ⟨.inr ?_, ih⟩
    simpa [Lexeme.token] using classOf?_first? hl

end Scan

theorem tokenize_ok {file source : String} {ts : List Token} (h : tokenize file source = .ok ts) :
    ts = (Scan.ofText file source).tokens := by
  unfold tokenize at h
  simp only at h
  split at h
  · cases h
  · exact (Except.ok.inj h).symm

theorem tokenize_faithful {file source : String} {ts : List Token} (h : tokenize file source = .ok ts) :
    ∀ t ∈ ts, t.kind = .finish ∨ classOf? t.lexeme.toList = some t.kind := by
  rw [tokenize_ok h]
  exact (Scan.cuts_scanFrom file .origin source.toList).faithful

/-! ## Texts put together from words -/

inductive Spaced : List Char → List String → Prop
  | nil : Spaced [] []
  | blank {c : Char} {cs : List Char} {ws : List String} :
      Text.isBlank c = true → Spaced cs ws → Spaced (c :: cs) ws
  | word {w : String} {rest : List Char} {ws : List String} :
      (classOf? w.toList).isSome → Closed w.toList rest → Spaced rest ws → Spaced (w.toList ++ rest) (w :: ws)

theorem Spaced.cuts {ws : List String} (h : Spaced cs ws) (file : String) (p : Position) :
    ∃ ts l, Scan.Cuts file p cs ⟨ts ++ [.finish l], []⟩ ∧ Spelled ts ws := by
  induction h generalizing p with
  | nil => exact ⟨[], _, .finish, rfl, by simp⟩
  | @blank c cs ws hb _ ih =>
    obtain ⟨ts, l, hcuts, hs⟩ := ih (p.step c)
    exact ⟨ts, l, .blank hb hcuts, hs⟩
  | @word w rest ws hw hr _ ih =>
    obtain ⟨k, hk⟩ := Option.isSome_iff_exists.mp hw
    obtain ⟨ts, l, hcuts, hs⟩ := ih (p.pass w.toList)
    have hcut := Scan.Cuts.lexeme (l := ⟨k, w.toList⟩) (first?_append hk hr) hcuts
    refine ⟨(⟨k, w.toList⟩ : Lexeme).token (p.within file) :: ts, l, hcut, ?_, ?_⟩
    · simp [Lexeme.token, hs.words]
    · rw [List.forall_mem_cons]
      exact ⟨by simpa [Lexeme.token] using hk, hs.kinds⟩

/-- Such a text is cut apart into its words. -/
theorem tokenize_spaced (file : String) {source : String} {ws : List String} (h : Spaced source.toList ws) :
    ∃ ts l, tokenize file source = .ok (ts ++ [.finish l]) ∧ Spelled ts ws := by
  obtain ⟨ts, l, hcuts, hs⟩ := h.cuts file .origin
  refine ⟨ts, l, ?_, hs⟩
  unfold tokenize Scan.ofText
  simp only [← hcuts.eq_scanFrom]

/-- Single blanks keep all words apart. -/
theorem spaced_joined {ws : List String} (h : ∀ w ∈ ws, (classOf? w.toList).isSome) :
    Spaced (String.intercalate " " ws).toList ws := by
  rw [String.toList_intercalate]
  induction ws with
  | nil => exact .nil
  | cons w ws ih =>
    rw [List.forall_mem_cons] at h
    cases ws with
    | nil => simpa using Spaced.word h.1 closed_nil .nil
    | cons v ws =>
      rw [List.map_cons, List.map_cons, List.intercalate_cons_cons, List.append_assoc]
      exact .word h.1 (closed_of_blank (by decide)) (.blank (by decide) (ih h.2))

end LambdaSyntax
