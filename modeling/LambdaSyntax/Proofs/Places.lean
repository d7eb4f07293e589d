/-
  LambdaSyntax.Proofs.Places — the counters of a scanner say where it stands.

  A scanner counts characters, lines and columns as it goes. `placeAt` says what the counters
  have to be at an index of the text: the line is one more than the line feeds before it, the
  column one more than the characters since the last of them. Passing over any characters
  keeps to that (`pass_placeAt`), and so does every step, whatever the steps before it
  (`run_places`): the scanner never leaves its text, and every token and every error that it
  answers or keeps names a place of the text.

  A whole scan is no exception. It goes in rounds: pass the blanks, then take a token, or record
  a bad character and pass it (`scanAll_rounds`).
-/

import Mathlib.Logic.Function.Iterate
import LambdaSyntax.Proofs.Coverage
import LambdaSyntax.Token.Scanner

namespace LambdaSyntax

/-! ## Places of a text -/

section

variable {cs : List Char} {c : Char} {i : Nat}

/-- The line of the character at an index, counted from one. -/
def lineAt (cs : List Char) (i : Nat) : Nat := 1 + (cs.take i).count '\n'

/-- The place of the character at an index in its line, counted from one. -/
def columnAt (cs : List Char) (i : Nat) : Nat := 1 + ((cs.take i).reverse.takeWhile (· ≠ '\n')).length

def placeAt (cs : List Char) (i : Nat) : Position := ⟨i, lineAt cs i, columnAt cs i⟩

/-- The location is that of its own offset in the text, which may be the end of the text. -/
def Location.IsPlace (file : String) (cs : List Char) (l : Location) : Prop :=
  ∃ i ≤ cs.length, l = (placeAt cs i).within file

theorem placeAt_step (hc : cs[i]? = some c) : (placeAt cs i).step c = placeAt cs (i + 1) := by
  have htake : cs.take (i + 1) = cs.take i ++ [c] := by rw [List.take_add_one, hc, Option.toList_some]
  unfold Position.step
  by_cases h : c = '\n'
  · rw [if_pos h]
    simp [placeAt, lineAt, columnAt, htake, h]
    omega
  · rw [if_neg h]
    simp [placeAt, lineAt, columnAt, htake, h]
    omega

/-- The counters start at the first place and count right. -/
theorem placeAt_eq (hi : i ≤ cs.length) : placeAt cs i = Position.origin.pass (cs.take i) := by
  induction i with
  | zero => rfl
  | succ i ih =>
    have hc : cs[i]? = some cs[i] := List.getElem?_eq_getElem hi
    rw [← placeAt_step hc, ih (Nat.le_of_succ_le hi), List.take_add_one, hc, Option.toList_some, pass_append]
    rfl

theorem pass_placeAt (hi : i ≤ cs.length) (n : Nat) :
    (placeAt cs i).pass ((cs.drop i).take n) = placeAt cs (min (i + n) cs.length) := by
  rw [placeAt_eq hi, ← pass_append, ← List.take_add, placeAt_eq (Nat.min_le_right _ _), ← List.take_eq_take_min]

end

/-! ## Scanners that stand in a text -/

namespace Scanner

variable {file : String} {cs rest : List Char} {c : Char} {s : Scanner} {n : Nat}

/-- The scanner stands at a place of the text, and so does all that it keeps. -/
structure InText (file : String) (cs : List Char) (s : Scanner) : Prop where
  file_eq : s.file = file
  source_eq : s.source = cs
  within : s.position.offset ≤ cs.length
  line_eq : s.position.line = lineAt cs s.position.offset
  column_eq : s.position.column = columnAt cs s.position.offset
  tokens : ∀ t ∈ s.tokens, t.loc.IsPlace file cs
  errors : ∀ e ∈ s.errors, e.loc.IsPlace file cs

/-- Every token and every error of the answer stands at a place of the text. -/
def Answer.InText (file : String) (cs : List Char) : Answer → Prop
  | .tokens ts => ∀ t ∈ ts, t.loc.IsPlace file cs
  | .token t => t.loc.IsPlace file cs
  | .error e => e.loc.IsPlace file cs
  | .nothing | .truth _ => True

theorem InText.position_eq (h : s.InText file cs) : s.position = placeAt cs s.position.offset := by
  obtain ⟨-, -, -, hl, hc, -, -⟩ := h
  rw [placeAt, ← hl, ← hc]

theorem InText.isPlace (h : s.InText file cs) : (s.position.within s.file).IsPlace file cs := by
  refine ⟨s.position.offset, h.within, ?_⟩
  rw [h.file_eq, ← h.position_eq]

theorem inText_start (file source : String) : (start file source).InText file source.toList := by
  constructor <;> simp [start, Position.origin, lineAt, columnAt]

/-! ## Passing characters -/

@[simp] theorem file_pass (s : Scanner) (n : Nat) : (s.pass n).file = s.file := rfl

@[simp] theorem source_pass (s : Scanner) (n : Nat) : (s.pass n).source = s.source := rfl

@[simp] theorem tokens_pass (s : Scanner) (n : Nat) : (s.pass n).tokens = s.tokens := rfl

@[simp] theorem errors_pass (s : Scanner) (n : Nat) : (s.pass n).errors = s.errors := rfl

theorem offset_pass (s : Scanner) (n : Nat) : (s.pass n).position.offset = s.position.offset + min n s.rest.length := by
  rw [pass, Scan.offset_pass, List.length_take]

theorem rest_pass (s : Scanner) (n : Nat) : (s.pass n).rest = s.rest.drop n := by
  rw [rest, offset_pass, source_pass, ← List.drop_drop, ← rest]
  rcases Nat.le_total n s.rest.length with h | h
  · rw [Nat.min_eq_left h]
  · rw [Nat.min_eq_right h, List.drop_length, List.drop_eq_nil_of_le h]

theorem pass_zero (s : Scanner) : s.pass 0 = s := rfl

theorem pass_pass (s : Scanner) (m n : Nat) : (s.pass m).pass n = s.pass (m + n) := by
  have hpos : (s.position.pass (s.rest.take m)).pass ((s.pass m).rest.take n) = s.position.pass (s.rest.take (m + n)) := by
    rw [rest_pass, ← pass_append, ← List.take_add]
  show { s with position := (s.position.pass (s.rest.take m)).pass ((s.pass m).rest.take n) } = s.pass (m + n)
  rw [hpos]
  rfl

theorem InText.pass (h : s.InText file cs) (n : Nat) : (s.pass n).InText file cs := by
  have hpos : (s.pass n).position = placeAt cs (min (s.position.offset + n) cs.length) := by
    rw [← pass_placeAt h.within n, ← h.position_eq, ← h.source_eq]
    rfl
  constructor
  · exact h.file_eq
  · exact h.source_eq
  · rw [hpos]
    exact Nat.min_le_right _ _
  · rw [hpos]
    rfl
  · rw [hpos]
    rfl
  · exact h.tokens
  · exact h.errors

theorem nextToken_cases (s : Scanner) :
    s.rest = [] ∧ s.nextToken = (.nothing, s) ∨
    (∃ l rest, s.rest = l.chars ++ rest ∧ Lexeme.first? s.rest = some l ∧
      s.nextToken = (.token (l.token (s.position.within s.file)), s.pass l.chars.length)) ∨
    ∃ c rest, s.rest = c :: rest ∧ Lexeme.first? s.rest = none ∧
      s.nextToken = (.error ⟨c, s.position.within s.file⟩, s) := by
  unfold nextToken
  cases hr : s.rest with
  | nil => exact .inl ⟨rfl, rfl⟩
  | cons c rest =>
    cases hl : Lexeme.first? (c :: rest) with
    | none => exact .inr (.inr ⟨c, rest, rfl, rfl, by simp [hl]⟩)
    | some l =>
      obtain ⟨more, hmore⟩ := first?_prefix hl
      exact .inr (.inl ⟨l, more, hmore.symm, rfl, by simp [hl]⟩)

/-! ## A whole scan -/

def restarted (s : Scanner) : Scanner := { s with position := .origin, tokens := [], errors := [] }

def addToken (t : Token) (s : Scanner) : Scanner := { s with tokens := s.tokens ++ [t] }

def addError (e : LexicalError) (s : Scanner) : Scanner := { s with errors := s.errors ++ [e] }

/-- Blanks are passed, then a token is taken, or a bad character is recorded and passed. -/
def round (s : Scanner) : Scanner :=
  match (s.pass (s.rest.takeWhile Text.isBlank).length).nextToken with
  | (.token t, s') => s'.addToken t
  | (.error e, s') => (s'.pass 1).addError e
  | (_, s') => s'

/-- The list of tokens is closed where the scanner stands. -/
def closed (s : Scanner) : Scanner := s.addToken (.finish (s.position.within s.file))

theorem round_nil (h : s.rest = []) : s.round = s := by
  unfold round
  rw [h]
  simp [pass_zero, nextToken, h]

theorem round_blank (h : s.rest = c :: rest) (hb : Text.isBlank c = true) : s.round = (s.pass 1).round := by
  have hrest : (s.pass 1).rest = rest := by rw [rest_pass, h]; rfl
  unfold round
  rw [hrest, h, List.takeWhile_cons_of_pos hb, pass_pass, List.length_cons, Nat.add_comm]

theorem round_token {l : Lexeme} (h : s.rest = l.chars ++ rest) (hl : Lexeme.first? (l.chars ++ rest) = some l) :
    s.round = (s.pass l.chars.length).addToken (l.token (s.position.within s.file)) := by
  have hclass := classOf?_first? hl
  obtain ⟨c, more, hc⟩ := List.exists_cons_of_ne_nil (ne_nil_of_class hclass)
  have hb : Text.isBlank c = false := not_blank_of_class hclass c (by simp [hc])
  rw [hc, List.cons_append] at h hl
  unfold round
  rw [h, List.takeWhile_cons_of_neg (by simp [hb])]
  simp only [List.length_nil, pass_zero, nextToken, h, hl]

theorem round_bad (h : s.rest = c :: rest) (hb : Text.isBlank c = false) (hl : Lexeme.first? (c :: rest) = none) :
    s.round = (s.pass 1).addError ⟨c, s.position.within s.file⟩ := by
  unfold round
  rw [h, List.takeWhile_cons_of_neg (by simp [hb])]
  simp only [List.length_nil, pass_zero, nextToken, h, hl]

/-- However a text is cut, rounds cut it so. -/
theorem rounds_of_cuts {p : Position} {scan : Scan} (h : Scan.Cuts file p cs scan) (hf : s.file = file)
    (hp : s.position = p) (hr : s.rest = cs) : ∃ n, (round^[n + 1] s).rest = [] ∧
      (round^[n + 1] s).closed = { s with position := p.pass cs, tokens := s.tokens ++ scan.tokens,
                                          errors := s.errors ++ scan.errors } := by
  induction h generalizing s with
  | finish =>
    refine ⟨0, ?_⟩
    rw [Function.iterate_one, round_nil hr]
    refine ⟨hr, ?_⟩
    subst hf hp
    simp [closed, addToken, Position.pass]
  | @blank p c cs scan hb _ ih =>
    have hpos : (s.pass 1).position = p.step c := by rw [pass, hr, hp]; rfl
    have hrest : (s.pass 1).rest = cs := by rw [rest_pass, hr]; rfl
    obtain ⟨n, hn⟩ := ih (s := s.pass 1) hf hpos hrest
    refine ⟨n, ?_⟩
    rw [Function.iterate_succ_apply, round_blank hr hb, ← Function.iterate_succ_apply]
    exact hn
  | @lexeme p l rest scan hl _ ih =>
    have hpos : (s.pass l.chars.length).position = p.pass l.chars := by rw [pass, hr, List.take_left, hp]
    have hrest : (s.pass l.chars.length).rest = rest := by rw [rest_pass, hr, List.drop_left]
    obtain ⟨n, hn⟩ := ih (s := (s.pass l.chars.length).addToken (l.token (p.within file))) hf hpos hrest
    refine ⟨n + 1, ?_⟩
    rw [Function.iterate_succ_apply, round_token hr hl, hf, hp]
    refine ⟨hn.1, hn.2.trans ?_⟩
    rw [pass_append]
    simp [addToken, Scan.addToken, hf]
  | @bad p c cs scan hb hl _ ih =>
    have hpos : (s.pass 1).position = p.step c := by rw [pass, hr, hp]; rfl
    have hrest : (s.pass 1).rest = cs := by rw [rest_pass, hr]; rfl
    obtain ⟨n, hn⟩ := ih (s := (s.pass 1).addError ⟨c, p.within file⟩) hf hpos hrest
    refine ⟨n + 1, ?_⟩
    rw [Function.iterate_succ_apply, round_bad hr hb hl, hf, hp]
    refine ⟨hn.1, hn.2.trans ?_⟩
    simp [addError, Scan.addError, Position.pass, hf]

/-- A whole scan starts over and goes in rounds until nothing is left. -/
theorem scanAll_rounds (s : Scanner) :
    ∃ n, (round^[n] s.restarted).rest = [] ∧ s.scanAll = (round^[n] s.restarted).closed := by
  obtain ⟨n, hrest, hclosed⟩ := rounds_of_cuts (s := s.restarted) (Scan.cuts_scanFrom s.file .origin s.source) rfl rfl rfl
  exact ⟨n + 1, hrest, hclosed.symm⟩

/-! ## What the steps keep -/

theorem InText.restarted (h : s.InText file cs) : s.restarted.InText file cs := by
  refine ⟨h.file_eq, h.source_eq, Nat.zero_le _, ?_, ?_, ?_, ?_⟩ <;>
    simp [Scanner.restarted, Position.origin, lineAt, columnAt]

theorem InText.nextToken (h : s.InText file cs) : s.nextToken.1.InText file cs ∧ s.nextToken.2.InText file cs := by
  rcases s.nextToken_cases with ⟨-, hn⟩ | ⟨l, rest, -, -, hn⟩ | ⟨c, rest, -, -, hn⟩
  · rw [hn]
    exact ⟨trivial, h⟩
  · rw [hn]
    exact ⟨h.isPlace, h.pass _⟩
  · rw [hn]
    exact ⟨h.isPlace, h⟩

theorem InText.addToken {t : Token} (h : s.InText file cs) (ht : t.loc.IsPlace file cs) :
    (s.addToken t).InText file cs := by
  refine { h with tokens := ?_ }
  rw [Scanner.addToken, List.forall_mem_append, List.forall_mem_singleton]
  exact ⟨h.tokens, ht⟩

theorem InText.addError {e : LexicalError} (h : s.InText file cs) (he : e.loc.IsPlace file cs) :
    (s.addError e).InText file cs := by
  refine { h with errors := ?_ }
  rw [Scanner.addError, List.forall_mem_append, List.forall_mem_singleton]
  exact ⟨h.errors, he⟩

theorem InText.round (h : s.InText file cs) : s.round.InText file cs := by
  obtain ⟨hplace, hnext⟩ := (h.pass (s.rest.takeWhile Text.isBlank).length).nextToken
  unfold Scanner.round
  split
  · rename_i t s' hn
    rw [hn] at hplace hnext
    exact hnext.addToken hplace
  · rename_i e s' hn
    rw [hn] at hplace hnext
    exact (hnext.pass 1).addError hplace
  · rename_i a s' _ _ hn
    rw [hn] at hnext
    exact hnext

theorem InText.rounds (h : s.InText file cs) (n : Nat) : (Scanner.round^[n] s).InText file cs := by
  induction n generalizing s with
  | zero => exact h
  | succ n ih => exact ih h.round

theorem InText.scanAll (h : s.InText file cs) : s.scanAll.InText file cs := by
  obtain ⟨n, -, hs⟩ := s.scanAll_rounds
  have hend := h.restarted.rounds n
  rw [hs]
  exact hend.addToken hend.isPlace

theorem InText.step (h : s.InText file cs) (x : Step) : (s.step x).1.InText file cs ∧ (s.step x).2.InText file cs := by
  cases x with
  | tokenize => exact ⟨h.scanAll.tokens, h.scanAll⟩
  | nextToken => exact h.nextToken
  | skipBlank | advance | advanceBy n => exact ⟨trivial, h.pass _⟩
  | hasErrors => exact ⟨trivial, h⟩

theorem InText.run (h : s.InText file cs) (xs : List Step) : (s.run xs).InText file cs := by
  induction xs generalizing s with
  | nil => exact h
  | cons x xs ih => exact ih (h.step x).2

/-- A token is passed from end to end, and a bad character is not passed. -/
structure Takes (s : Scanner) : Prop where
  token {t : Token} : s.nextToken.1 = .token t → s.nextToken.2.position.offset = s.position.offset + t.lexeme.length
  error {e : LexicalError} : s.nextToken.1 = .error e → s.nextToken.2 = s

theorem takes (s : Scanner) : s.Takes := by
  rcases s.nextToken_cases with ⟨-, hn⟩ | ⟨l, rest, hr, -, hn⟩ | ⟨c, rest, -, -, hn⟩
  · constructor <;> intro _ h <;> rw [hn] at h <;> cases h
  · constructor
    · intro t ht
      rw [hn] at ht ⊢
      cases ht
      rw [offset_pass, hr]
      simp [Lexeme.token]
    · intro e he
      rw [hn] at he
      cases he
  · constructor
    · intro t ht
      rw [hn] at ht
      cases ht
    · intro e _
      rw [hn]

end Scanner

open Scanner

/-- After any steps the scanner stands at a place of its text, with every token and every error
    that it keeps; so do those that one more step answers. A token is passed from end to end,
    and a bad character is not passed. -/
theorem run_places (file source : String) (xs : List Step) (x : Step) :
    ((start file source).run xs).InText file source.toList ∧
    (((start file source).run xs).step x).1.InText file source.toList ∧
    ((start file source).run xs).Takes := by
  have h := (inText_start file source).run xs
  exact ⟨h, (h.step x).1, takes _⟩

/-- Only a line feed starts a line. -/
example : ((start "f" "a\r\n\x0bb").run [.advanceBy 4]).position = ⟨4, 2, 2⟩ := by decide

end LambdaSyntax
