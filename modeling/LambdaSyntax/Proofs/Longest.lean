/-
  LambdaSyntax.Proofs.Longest — wherever a lexeme starts, the scan takes the longest one.

  `Longest rest w`: the text `rest` begins with the lexeme `w`, and no longer beginning of it is
  a lexeme of any class. The first character settles the class, so a lexeme at the front of a
  text is never longer than what is cut off there (`first?_covers`). What is cut off is therefore
  the longest lexeme (`first?_longest`), and where nothing is cut off no beginning of the text is
  a lexeme (`classOf?_of_first?_none`).

  For a whole text that says which tokens and errors a scan can have (`ofText_longest`).
-/

import LambdaSyntax.Proofs.Coverage

namespace LambdaSyntax

variable {cs rest v : List Char} {k : Kind} {l : Lexeme}

structure Longest (rest w : List Char) : Prop where
  ne_nil : w ≠ []
  begins : w <+: rest
  lexeme : (classOf? w).isSome
  maximal : ∀ v, v <+: rest → (classOf? v).isSome → v.length ≤ w.length

theorem takeWhile_covers {p : Char → Bool} (hv : ∀ c ∈ v, p c = true) (rest : List Char) :
    v.length ≤ ((v ++ rest).takeWhile p).length := by
  rw [List.takeWhile_append_of_pos hv, List.length_append]
  omega

theorem operator?_length_pos (h : Lexeme.operator? cs = some l) : 0 < l.chars.length := by
  obtain ⟨k, hk, rfl⟩ := Option.map_eq_some_iff.mp h
  obtain ⟨o, os, rfl, -⟩ := operator_chars hk
  simp

/-- A lexeme at the front of a text is no longer than the one that is cut off there. -/
theorem first?_covers (hv : classOf? v = some k) (rest : List Char) :
    ∃ l, Lexeme.first? (v ++ rest) = some l ∧ v.length ≤ l.chars.length := by
  rcases classOf?_cases hv with ⟨hd, -⟩ | ⟨hw, -⟩ | ho
  · have hdigits := digits_of_isDigits hd
    have hlen := takeWhile_covers hdigits rest
    cases v with
    | nil => cases hd
    | cons c v =>
      rw [List.cons_append] at hlen ⊢
      exact ⟨_, first?_of_digit (hdigits c (by simp)), hlen⟩
  · have hchars := wordChars_of_isWord hw
    have hlen := takeWhile_covers hchars rest
    cases v with
    | nil => cases hw
    | cons c v =>
      rw [isWord, Bool.and_eq_true] at hw
      rw [List.cons_append] at hlen ⊢
      exact ⟨_, first?_of_wordStart hw.1, hlen⟩
  · obtain ⟨o, os, rfl, hlen, hod, how, -⟩ := operator_chars ho
    have hop : Lexeme.operator? (o :: os) = some ⟨k, o :: os⟩ := by simp [Lexeme.operator?, ho]
    rw [List.cons_append, first?_of_sign hod how]
    cases os with
    | cons d ds =>
      obtain rfl : ds = [] := by simpa using hlen
      exact ⟨_, congrArg (Option.or · _) hop, Nat.le_refl _⟩
    | nil =>
      -- the one character is an operator, if it makes no longer one with the next
      rw [hop]
      cases h : Lexeme.operator? ((o :: ([] ++ rest)).take 2) with
      | none => exact ⟨_, rfl, Nat.le_refl _⟩
      | some l => exact ⟨l, rfl, operator?_length_pos h⟩

/-- What is cut off is the longest lexeme. -/
theorem first?_longest (h : Lexeme.first? cs = some l) : Longest cs l.chars := by
  have hclass := classOf?_first? h
  refine ⟨ne_nil_of_class hclass, first?_prefix h, by simp [hclass], ?_⟩
  intro v hv hk
  obtain ⟨k, hk⟩ := Option.isSome_iff_exists.mp hk
  obtain ⟨rest, rfl⟩ := hv
  obtain ⟨m, hm, hlen⟩ := first?_covers hk rest
  obtain rfl : m = l := Option.some.inj (hm.symm.trans h)
  exact hlen

theorem classOf?_of_first?_none (h : Lexeme.first? cs = none) (hv : v <+: cs) : classOf? v = none := by
  obtain ⟨rest, rfl⟩ := hv
  cases hk : classOf? v with
  | none => rfl
  | some k =>
    obtain ⟨l, hl, -⟩ := first?_covers hk rest
    rw [h] at hl
    cases hl

/-! ## Tokens and errors -/

/-- The value that is right for the kind. -/
structure Token.Carries (t : Token) : Prop where
  kwTrue : t.kind = .kwTrue → t.value = .truth true
  kwFalse : t.kind = .kwFalse → t.value = .truth false
  identifier : t.kind = .identifier → t.value = .name t.lexeme
  others : t.kind ∉ [.kwTrue, .kwFalse, .identifier] → t.value = .none

/-- The token is the longest lexeme at the front of the text. -/
structure Token.Opens (t : Token) (rest : List Char) : Prop where
  longest : Longest rest t.lexeme.toList
  kind : classOf? t.lexeme.toList = some t.kind
  value : t.Carries

/-- The text starts with the character of the error, and neither with a blank nor with a lexeme. -/
structure LexicalError.Blocks (e : LexicalError) (rest : List Char) : Prop where
  head : rest.head? = some e.char
  not_blank : Text.isBlank e.char = false
  no_lexeme : ∀ v, v <+: rest → classOf? v = none

theorem carries_token (l : Lexeme) (loc : Location) : (l.token loc).Carries := by
  obtain ⟨k, cs⟩ := l
  cases k <;> constructor <;> intro hk <;> first | rfl | cases hk | exact absurd hk (by simp [Lexeme.token])

theorem opens_token (h : Lexeme.first? cs = some l) (loc : Location) : (l.token loc).Opens cs := by
  refine ⟨?_, ?_, carries_token l loc⟩
  · simpa [Lexeme.token] using first?_longest h
  · simpa [Lexeme.token] using classOf?_first? h

namespace Scan

/-- Whatever the scan of a text that begins at `p` made, it made of what begins at its place. -/
structure Opened (p : Position) (cs : List Char) (s : Scan) : Prop where
  tokens : ∀ t ∈ s.body, ∃ i : Nat, t.loc.offset = (p.offset + i : Nat) ∧ t.Opens (cs.drop i)
  errors : ∀ e ∈ s.errors, ∃ i : Nat, e.loc.offset = (p.offset + i : Nat) ∧ e.Blocks (cs.drop i)

theorem Opened.before {p q : Position} {n : Nat} {s : Scan} (h : Opened q (cs.drop n) s) (hq : q.offset = p.offset + n) :
    Opened p cs s := by
  constructor
  · intro t ht
    obtain ⟨i, hi, hopens⟩ := h.tokens t ht
    exact ⟨n + i, by omega, by rwa [List.drop_drop] at hopens⟩
  · intro e he
    obtain ⟨i, hi, hblocks⟩ := h.errors e he
    exact ⟨n + i, by omega, by rwa [List.drop_drop] at hblocks⟩

theorem Cuts.opened {file : String} {p : Position} {s : Scan} (h : Cuts file p cs s) : Opened p cs s := by
  induction h with
  | finish => exact ⟨fun t ht => by simp [body, Token.finish] at ht, fun e he => by simp at he⟩
  | @blank p c cs s _ _ ih => exact Opened.before (n := 1) ih (offset_step p c)
  | @lexeme p l rest s hl _ ih =>
    have hrest : (l.chars ++ rest).drop l.chars.length = rest := List.drop_left
    have h : Opened p (l.chars ++ rest) s := Opened.before (hrest.symm ▸ ih) (offset_pass p l.chars)
    refine ⟨?_, h.errors⟩
    rw [body_addToken (kind_ne_finish (classOf?_first? hl)), List.forall_mem_cons]
    exact ⟨⟨0, rfl, opens_token hl _⟩, h.tokens⟩
  | @bad p c cs s hb hl _ ih =>
    have h : Opened p (c :: cs) s := Opened.before (n := 1) ih (offset_step p c)
    refine ⟨h.tokens, List.forall_mem_cons.mpr ⟨⟨0, rfl, rfl, hb, ?_⟩, h.errors⟩⟩
    exact fun v => classOf?_of_first?_none hl

end Scan

/-- Every token of a text is the longest lexeme at its place, with the kind of its class and the
    value of its kind. Every error is at a character that is not blank and at which no lexeme
    starts. -/
theorem ofText_longest (file source : String) :
    (∀ t ∈ (Scan.ofText file source).body, ∃ o : Nat, t.loc.offset = o ∧ t.Opens (source.toList.drop o)) ∧
    ∀ e ∈ (Scan.ofText file source).errors, ∃ o : Nat, e.loc.offset = o ∧ e.Blocks (source.toList.drop o) := by
  have h := (Scan.cuts_scanFrom file .origin source.toList).opened
  exact ⟨by simpa [Scan.ofText, Position.origin] using h.tokens, by simpa [Scan.ofText, Position.origin] using h.errors⟩

theorem ofText_longest_operators :
    (∃ t ∈ (Scan.ofText "" "-->=").body, t.kind = .arrow ∧ ∃ o : Nat, t.loc.offset = o ∧ t.Opens ("-->=".toList.drop o)) ∧
    ∃ e ∈ (Scan.ofText "" "-->=").errors, ∃ o : Nat, e.loc.offset = o ∧ e.Blocks ("-->=".toList.drop o) :=
  ⟨⟨_, .tail _ (.head _), rfl, (ofText_longest "" "-->=").1 _ (.tail _ (.head _))⟩,
    _, .head _, (ofText_longest "" "-->=").2 _ (.head _)⟩

end LambdaSyntax
