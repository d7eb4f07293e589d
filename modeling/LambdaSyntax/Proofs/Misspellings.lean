/-
  LambdaSyntax.Proofs.Misspellings — which keywords are offered for a misspelled word.

  A word that is no keyword is an identifier. Where an expression is to start an identifier starts it, and
  where one is complete an identifier is one more argument. So identifiers are refused only in the head
  of a function and in types, and of the keywords only `is`, `int` and `bool` are expected there
  (`Site.keyword_of_not_identifier`). Those are offered, each where it is expected and near the word, and
  no other keyword ever is (`readTokens_didYouMean`).
-/

import LambdaSyntax.Proofs.Sites
import LambdaSyntax.Proofs.Suggestions

namespace LambdaSyntax

open Hint Parse

variable {ts : List Token} {expected : KindSet} {k word : String} {j : Kind}

/-! ## Expected keywords -/

/-- The keywords that can be expected where an identifier is refused. -/
def signatureWords : List Kind := [.kwIs, .kwInt, .kwBool]

theorem Parse.Site.keyword_of_not_identifier (h : Site ts expected) (hi : .identifier ∉ expected) :
    ∀ j ∈ Kind.keywords, j ∈ expected → j ∈ signatureWords := by
  cases h with
  | expressionStart | termStart | param => exact absurd (by decide) hi
  | typeStart | colon => decide
  | expressionEnd _ hu hk =>
    refine absurd (KindSet.mem_union.mpr (.inl ?_)) hi
    rcases hu.follow_expression (.inl rfl) with rfl | ⟨rfl, -⟩ <;> decide
  | typeEnd _ hu hk =>
    obtain rfl := hu.follow_eq rfl
    intro j hj hmem
    rcases KindSet.mem_union.mp hmem with hmem | hmem
    · obtain rfl := KindSet.mem_single.mp hmem
      exact absurd hj (by decide)
    · obtain rfl := KindSet.mem_single.mp hmem
      revert hj hk
      cases j <;> decide

theorem mem_expectedKeywords : k ∈ expectedKeywords expected ↔ ∃ j ∈ Kind.keywords, j ∈ expected ∧ j.spelling? = some k := by
  simp [expectedKeywords, List.mem_filterMap, and_assoc]

/-- No more keywords are expected than are offered at most, so none that is near is cut off. -/
theorem length_expectedKeywords (h : ∀ j ∈ Kind.keywords, j ∈ expected → j ∈ signatureWords) :
    (expectedKeywords expected).length ≤ most :=
  calc (expectedKeywords expected).length
      ≤ (Kind.keywords.filter (· ∈ expected)).length := List.length_filterMap_le _ _
    _ = Kind.keywords.countP (· ∈ expected) := List.countP_eq_length_filter.symm
    _ ≤ Kind.keywords.countP (· ∈ signatureWords) := List.countP_mono_left fun j hj hmem => by
        simpa using h j hj (by simpa using hmem)
    _ ≤ most := by decide

/-- Of a few candidates all that are within reach are offered. -/
theorem mem_nearest_of_length {candidates : List String} (h : candidates.length ≤ most) :
    k ∈ nearest word candidates ↔ k ∈ candidates ∧ wordDistance word k ≤ reach := by
  have hlength : (candidates.filter (wordDistance word · ≤ reach)).length ≤ most :=
    Nat.le_trans (List.length_filter_le _ _) h
  rw [(nearest_isNearest word candidates).2, List.take_of_length_le (by simpa using hlength)]
  simp [List.mem_mergeSort]

/-! ## Whole readings -/

theorem SyntaxError.not_mem_of_not_refuses {e : SyntaxError} (h : e.refuses ≠ true) : j ∉ e.expected := by
  cases e with
  | unexpected | unexpectedEnd => exact absurd rfl h
  | overflow | invalidLiteral | tooDeep => exact KindSet.not_mem_empty

/-- Where an identifier is refused, no keywords are expected but those of a signature. -/
theorem readTokens_keyword {g : Goal} {limit : Int} {e : SyntaxError} (h : readTokens g limit ts = .error e)
    (hident : e.token.kind = .identifier) : ∀ j ∈ Kind.keywords, j ∈ e.expected → j ∈ signatureWords := by
  by_cases he : e.refuses = true
  · obtain ⟨us, rest, hat⟩ := readTokens_site h he
    exact hat.site.keyword_of_not_identifier (hident ▸ hat.refused)
  · exact fun j _ hmem => absurd hmem (SyntaxError.not_mem_of_not_refuses he)

/-- A correction of a word is offered exactly where the word is an identifier that is refused, and for
    those of `is`, `int` and `bool` that are expected there and two edits away at most. -/
theorem readTokens_didYouMean {g : Goal} {limit : Int} {e : SyntaxError} (h : readTokens g limit ts = .error e) :
    (∀ k, e.Suggests (didYouMean k) ↔ e.token.kind = .identifier ∧
      distance (Text.lowerCase e.token.lexeme.toList) k.toList ≤ 2 ∧
      ∃ j ∈ [Kind.kwIs, .kwInt, .kwBool], j.spelling? = some k ∧ j ∈ e.expected) ∧
    ∀ k ∈ ["then", "else", "if", "fun", "true", "false"], ¬e.Suggests (didYouMean k) := by
  have hiff (k : String) : e.Suggests (didYouMean k) ↔ e.token.kind = .identifier ∧
      distance (Text.lowerCase e.token.lexeme.toList) k.toList ≤ 2 ∧
      ∃ j ∈ signatureWords, j.spelling? = some k ∧ j ∈ e.expected := by
    rw [SyntaxError.suggests_didYouMean, and_congr_right_iff]
    intro hident
    have hwords := readTokens_keyword h hident
    have hkeyword : ∀ j ∈ signatureWords, j ∈ Kind.keywords := by decide
    rw [mem_nearest_of_length (length_expectedKeywords hwords), mem_expectedKeywords]
    constructor
    · rintro ⟨⟨j, hj, hmem, hspelled⟩, hnear⟩
      exact ⟨hnear, j, hwords j hj hmem, hspelled, hmem⟩
    · rintro ⟨hnear, j, hj, hspelled, hmem⟩
      exact ⟨⟨j, hkeyword j hj, hmem, hspelled⟩, hnear⟩
  refine ⟨hiff, fun k hk hs => ?_⟩
  obtain ⟨-, -, j, hj, hspelled, -⟩ := (hiff k).mp hs
  have hother : ∀ j ∈ signatureWords, ∀ k ∈ ["then", "else", "if", "fun", "true", "false"], j.spelling? ≠ some k := by
    decide
  exact hother j hj k hk hspelled

theorem readTokens_didYouMean_signature : ∃ e,
    readTokens .expression 2 (Scan.ofText "f" "fun x : Itn is x").tokens = .error e ∧
    e.Suggests (didYouMean "int") ∧ ¬e.Suggests (didYouMean "is") ∧ ¬e.Suggests (didYouMean "if") := by
  have h : ∃ e, readTokens .expression 2 (Scan.ofText "f" "fun x : Itn is x").tokens = .error e ∧
      e.token.kind = .identifier ∧ e.token.lexeme = "Itn" ∧ e.expected = typeStart := ⟨_, rfl, rfl, rfl, rfl⟩
  obtain ⟨e, he, hkind, hlexeme, hexpected⟩ := h
  obtain ⟨hiff, hnever⟩ := readTokens_didYouMean he
  refine ⟨e, he, (hiff "int").mpr ⟨hkind, ?_, .kwInt, ?_⟩, fun hs => ?_, hnever "if" (by decide)⟩
  · rw [hlexeme]
    decide
  · rw [hexpected]
    decide
  · obtain ⟨-, -, j, hj, hspelled, hmem⟩ := (hiff "is").mp hs
    rw [hexpected] at hmem
    have hnot : ∀ j ∈ [Kind.kwIs, .kwInt, .kwBool], j.spelling? = some "is" → j ∉ typeStart := by decide
    exact hnot j hj hspelled hmem

end LambdaSyntax
