/-
  LambdaSyntax.Proofs.Suggestions — which error makes which suggestion.

  What may be missing, what a word may have been meant to be, and what may be too much begin with different
  letters, so no text of one sort is one of another. A correction of a word is suggested exactly for a
  refused identifier that is near the word (`suggests_didYouMean`). The hints on structure
  are made for the refused token alone (`suggests_unmatched`, `suggests_chained`).
-/

import LambdaSyntax.Proofs.Nearest
import LambdaSyntax.SyntaxError

namespace LambdaSyntax

namespace Hint

variable {s k : String} {t : Token} {expected : KindSet}

/-- The hint that a right parenthesis is too much. -/
def unmatched : String := "Remove the unmatched ')'"

/-- The hint that a comparison is too much. -/
def chained : String := "Comparisons do not chain; parenthesize one comparison, e.g. '(a < b) == c'"

def initial? (s : String) : Option Char := s.toList.head?

theorem didYouMean_inj {j k : String} (h : didYouMean j = didYouMean k) : j = k :=
  (String.append_right_inj _).mp ((String.append_left_inj _).mp h)

theorem initial_didYouMean (k : String) : initial? (didYouMean k) = some 'D' := by
  show initial? ("Did you mean '" ++ k ++ "'?") = some 'D'
  simp [initial?]

theorem initial_phrase (h : s ∈ (phrases.filter (·.1 ∈ expected)).map (·.2)) : initial? s = some 'A' := by
  have hall : ∀ p ∈ phrases, initial? p.2 = some 'A' := by decide
  obtain ⟨p, hp, rfl⟩ := List.mem_map.mp h
  exact hall p (List.mem_filter.mp hp).1

theorem initial_misspelled (h : s ∈ misspelled expected t) : initial? s = some 'D' := by
  unfold misspelled at h
  split at h
  · obtain ⟨k, -, rfl⟩ := List.mem_map.mp h
    exact initial_didYouMean k
  · cases h

/-- The hint to wrap an operand begins like no other. -/
theorem initial_wrap (word : String) :
    initial? ("Wrap the '" ++ word ++ "' expression in parentheses when it is an operand") = some 'W' := by
  simp [initial?]

theorem initial_unexpected (h : s ∈ unexpected t) : initial? s ≠ some 'A' ∧ initial? s ≠ some 'D' := by
  unfold unexpected at h
  split at h
  · obtain rfl := List.mem_singleton.mp h
    decide
  split at h
  · obtain rfl := List.mem_singleton.mp h
    rw [initial_wrap]
    decide
  split at h
  · obtain rfl := List.mem_singleton.mp h
    decide
  · cases h

theorem mem_missing : s ∈ missing expected (some t) ↔
    s ∈ (phrases.filter (·.1 ∈ expected)).map (·.2) ∨ s ∈ misspelled expected t := by
  rw [missing, List.mem_append]
  rfl

theorem didYouMean_mem_missing : didYouMean k ∈ missing expected (some t) ↔
    t.kind = .identifier ∧ k ∈ nearest t.lexeme (expectedKeywords expected) := by
  have hphrase : didYouMean k ∉ (phrases.filter (·.1 ∈ expected)).map (·.2) := by
    intro h
    have hA := initial_phrase h
    rw [initial_didYouMean] at hA
    exact absurd hA (by decide)
  rw [mem_missing, or_iff_right hphrase, misspelled]
  by_cases ht : t.kind = .identifier
  · rw [if_pos ht, List.mem_map]
    constructor
    · rintro ⟨j, hj, hjk⟩
      exact ⟨ht, didYouMean_inj hjk ▸ hj⟩
    · exact fun h => ⟨k, h.2, rfl⟩
  · simp [ht]

theorem didYouMean_not_unexpected : didYouMean k ∉ unexpected t := by
  exact fun h => (initial_unexpected h).2 (initial_didYouMean k)

/-- A text that begins with other letters is no phrase and no correction. -/
theorem not_missing (hA : initial? s ≠ some 'A') (hD : initial? s ≠ some 'D') : s ∉ missing expected (some t) := by
  rw [mem_missing]
  rintro (h | h)
  · exact hA (initial_phrase h)
  · exact hD (initial_misspelled h)

theorem ne_wrap {word : String} (h : initial? s ≠ some 'W') :
    s ≠ "Wrap the '" ++ word ++ "' expression in parentheses when it is an operand" :=
  fun heq => h (heq ▸ initial_wrap word)

theorem unmatched_mem_unexpected : unmatched ∈ unexpected t ↔ t.kind = .rightParen := by
  have hchained : unmatched ≠ chained := by decide
  unfold unexpected
  split
  · rename_i h
    have hne : t.kind ≠ .rightParen := fun hk => absurd (hk ▸ h) (by decide)
    exact iff_of_false (fun hs => hchained (List.mem_singleton.mp hs)) hne
  split
  · rename_i h
    have hne : t.kind ≠ .rightParen := fun hk => absurd (hk ▸ h) (by decide)
    exact iff_of_false (fun hs => ne_wrap (by decide) (List.mem_singleton.mp hs)) hne
  split
  · rename_i h
    exact iff_of_true (List.mem_singleton.mpr rfl) h
  · rename_i h
    exact iff_of_false List.not_mem_nil h

theorem chained_mem_unexpected : chained ∈ unexpected t ↔ t.kind ∈ comparisons := by
  have hunmatched : chained ≠ unmatched := by decide
  unfold unexpected
  split
  · rename_i h
    exact iff_of_true (List.mem_singleton.mpr rfl) h
  rename_i h
  refine iff_of_false (fun hs => ?_) h
  split at hs
  · exact ne_wrap (by decide) (List.mem_singleton.mp hs)
  split at hs
  · exact hunmatched (List.mem_singleton.mp hs)
  · cases hs

theorem nearest_nil (word : String) : nearest word [] = [] := by simp [nearest, candidatesAt]

end Hint

namespace SyntaxError

open Hint

variable {e : SyntaxError} {s k : String}

/-- The text is among the suggestions. -/
def Suggests (e : SyntaxError) (s : String) : Prop := ∃ ss, e.suggestions = some ss ∧ s ∈ ss

/-- A keyword is offered for an identifier that is refused, if it is expected there and is near. -/
theorem suggests_didYouMean : e.Suggests (didYouMean k) ↔
    e.token.kind = .identifier ∧ k ∈ nearest e.token.lexeme (expectedKeywords e.expected) := by
  have hnone (word : String) : k ∉ nearest word (expectedKeywords ∅) := by
    have hempty : expectedKeywords ∅ = [] := rfl
    simp [hempty, nearest_nil]
  cases e with
  | unexpected ks t p =>
    simp [Suggests, suggestions, didYouMean_mem_missing, didYouMean_not_unexpected, token, SyntaxError.expected]
  | unexpectedEnd ks t p => simp [Suggests, suggestions, didYouMean_mem_missing, token, SyntaxError.expected]
  | overflow t p => simp [Suggests, suggestions, SyntaxError.expected, hnone]
  | invalidLiteral t p r => simp [Suggests, suggestions, SyntaxError.expected, hnone]
  | tooDeep t p l =>
    have hdeep : didYouMean k ∉ ["Reduce the nesting depth", "Raise the parser's max_depth"] := by
      intro h
      have hR : ∀ s ∈ ["Reduce the nesting depth", "Raise the parser's max_depth"], initial? s ≠ some 'D' := by decide
      exact hR _ h (initial_didYouMean k)
    simpa [Suggests, suggestions, SyntaxError.expected, hnone] using hdeep

/-- A hint on structure is made for nothing but the token that is refused. -/
theorem suggests_structure (hs : s = unmatched ∨ s = chained) :
    e.Suggests s ↔ ∃ ks t p, e = .unexpected ks t p ∧ s ∈ Hint.unexpected t := by
  have hmissing (ks : KindSet) (t : Token) : s ∉ missing ks (some t) := by
    rcases hs with rfl | rfl <;> exact not_missing (by decide) (by decide)
  have hdeep : s ∉ ["Reduce the nesting depth", "Raise the parser's max_depth"] := by
    rcases hs with rfl | rfl <;> decide
  cases e with
  | unexpected ks t p =>
    have hmem : (unexpected ks t p).Suggests s ↔ s ∈ Hint.unexpected t := by simp [Suggests, suggestions, hmissing]
    rw [hmem]
    constructor
    · exact fun h => ⟨ks, t, p, rfl, h⟩
    · rintro ⟨_, _, _, ⟨⟩, h⟩
      exact h
  | unexpectedEnd ks t p => simp [Suggests, suggestions, hmissing]
  | overflow t p => simp [Suggests, suggestions]
  | invalidLiteral t p r => simp [Suggests, suggestions]
  | tooDeep t p l => simpa [Suggests, suggestions] using hdeep

theorem suggests_unmatched : e.Suggests unmatched ↔ ∃ ks t p, e = .unexpected ks t p ∧ t.kind = .rightParen := by
  simp only [suggests_structure (.inl rfl), unmatched_mem_unexpected]

theorem suggests_chained : e.Suggests chained ↔ ∃ ks t p, e = .unexpected ks t p ∧ t.kind ∈ comparisons := by
  simp only [suggests_structure (.inr rfl), chained_mem_unexpected]

end SyntaxError

end LambdaSyntax
