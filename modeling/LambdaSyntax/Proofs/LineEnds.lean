/-
  LambdaSyntax.Proofs.LineEnds — what blanks a text has, and how many in a row, changes no token but in its place.

  The `chunks` of a text are its runs of characters without a blank. As a scan starts afresh behind a
  blank, what it finds, the places apart, is what it finds in the chunks one after another
  (`found_chunks`), and texts of the same chunks are cut into tokens that are alike
  (`ofText_chunks`). To write each line end as a line feed leaves the chunks as they are
  (`chunks_lineFeeds`).
-/

import LambdaSyntax.Proofs.Layout
import LambdaSyntax.Proofs.Relocation
import LambdaSyntax.Text.Lines

namespace LambdaSyntax

variable {b : Char} {cs : List Char} {file : String}

/-! ## Chunks -/

namespace Text

def chunks (cs : List Char) : List (List Char) := (cs.splitOnP isBlank).filter (· ≠ [])

theorem chunks_append_blank (hb : isBlank b = true) (cs ds : List Char) :
    chunks (cs ++ b :: ds) = chunks cs ++ chunks ds := by
  rw [chunks, List.splitOnP_append_cons cs ds hb, List.filter_append]
  rfl

theorem chunks_of_no_blank (hcs : ∀ c ∈ cs, isBlank c = false) : chunks cs = [cs].filter (· ≠ []) := by
  rw [chunks, List.splitOnP_eq_singleton hcs]

/-- Whatever stands before it, a text may have its line ends changed. -/
theorem chunks_append_lineFeeds (cs ds : List Char) : chunks (cs ++ lineFeeds ds) = chunks (cs ++ ds) := by
  have hfeed : isBlank '\n' = true := rfl
  have hreturn : isBlank '\r' = true := rfl
  -- a character that stays goes over to the text before, for which the induction is made
  induction ds using lineFeeds.induct generalizing cs with
  | case1 => rfl
  | case2 ds ih =>
    have hpair := chunks_append_blank hfeed (cs ++ ['\r']) ds
    have hempty : chunks [] = [] := rfl
    rw [List.append_assoc] at hpair
    rw [lineFeeds, chunks_append_blank hfeed, ← List.singleton_append, hpair, chunks_append_blank hreturn, hempty,
      List.append_nil]
    exact congrArg (chunks cs ++ ·) (ih [])
  | case3 ds hds ih =>
    rw [lineFeeds, chunks_append_blank hfeed, chunks_append_blank hreturn]
    · exact congrArg (chunks cs ++ ·) (ih [])
    · exact hds
  | case4 c ds hpair hreturn ih =>
    rw [lineFeeds, ← List.singleton_append, ← List.append_assoc, ih, List.append_assoc]
    · rfl
    · exact hpair
    · exact hreturn

theorem chunks_lineFeeds (cs : List Char) : chunks (lineFeeds cs) = chunks cs := chunks_append_lineFeeds [] cs

end Text

/-! ## What is found -/

/-- What a token is, its place and value apart. -/
def Token.sign (t : Token) : Kind × String := (t.kind, t.lexeme)

namespace Scan

variable {s : Scan} {p : Position}

def signs (s : Scan) : List (Kind × String) := s.body.map Token.sign

def strays (s : Scan) : List Char := s.errors.map LexicalError.char

theorem Cuts.found_eq (hs : Cuts file p cs s) (q : Position) (file' : String) :
    s.signs = (scanFrom file' 0 q cs).signs ∧ s.strays = (scanFrom file' 0 q cs).strays := by
  induction hs generalizing q with
  | finish => exact ⟨rfl, rfl⟩
  | blank hb _ ih =>
    rw [scanFrom, if_pos hb]
    exact ih _
  | lexeme hl _ ih =>
    have hkind := kind_ne_finish (classOf?_first? hl)
    rw [scanFrom_lexeme hl, signs, signs, body_addToken hkind, body_addToken hkind]
    exact ⟨congrArg (_ :: ·) (ih _).1, (ih _).2⟩
  | bad hb hl _ ih =>
    rw [scanFrom, if_neg (by simp [hb]), hl]
    exact ⟨(ih _).1, congrArg (_ :: ·) (ih _).2⟩

/-- What is found does not depend on where the text stands. -/
theorem found_scanFrom (file file' : String) (p q : Position) (cs : List Char) :
    (scanFrom file 0 p cs).signs = (scanFrom file' 0 q cs).signs ∧
      (scanFrom file 0 p cs).strays = (scanFrom file' 0 q cs).strays :=
  (cuts_scanFrom file p cs).found_eq q file'

theorem body_joined (s t : Scan) : (s.joined t).body = s.body ++ t.body := by
  simp [joined, body, List.filter_filter]

theorem found_append_blank (hb : Text.isBlank b = true) (file : String) (p : Position) (cs ds : List Char) :
    (scanFrom file 0 p (cs ++ b :: ds)).signs = (scanFrom file 0 p cs).signs ++ (scanFrom file 0 p ds).signs ∧
      (scanFrom file 0 p (cs ++ b :: ds)).strays = (scanFrom file 0 p cs).strays ++ (scanFrom file 0 p ds).strays := by
  have hbehind := cuts_scanFrom file ((p.pass cs).step b) ds
  obtain ⟨hsigns, hstrays⟩ := hbehind.found_eq p file
  rw [← ((cuts_scanFrom file p cs).joined hb (.blank hb hbehind)).eq_scanFrom, ← hsigns, ← hstrays]
  constructor
  · simp only [signs, body_joined, List.map_append]
  · simp only [strays, joined, List.map_append]

/-- A scan finds what it finds in the chunks, one after another. -/
theorem found_chunks (file : String) (p : Position) (cs : List Char) :
    (scanFrom file 0 p cs).signs = (Text.chunks cs).flatMap (fun w => (scanFrom file 0 p w).signs) ∧
      (scanFrom file 0 p cs).strays = (Text.chunks cs).flatMap fun w => (scanFrom file 0 p w).strays := by
  -- the two sides of any blank are shorter, so the induction is on the length
  induction hn : cs.length using Nat.strongRecOn generalizing cs with
  | ind n ih =>
    subst hn
    by_cases hblank : ∀ c ∈ cs, Text.isBlank c = false
    · rw [Text.chunks_of_no_blank hblank]
      cases cs with
      | nil => exact ⟨rfl, rfl⟩
      | cons c cs => simp
    · simp only [not_forall, Bool.not_eq_false] at hblank
      obtain ⟨b, hmem, hb⟩ := hblank
      obtain ⟨before, behind, rfl⟩ := List.append_of_mem hmem
      obtain ⟨hsigns, hstrays⟩ := found_append_blank hb file p before behind
      have hbefore := ih before.length (by simp) before rfl
      have hbehind := ih behind.length (by simp; omega) behind rfl
      rw [Text.chunks_append_blank hb, List.flatMap_append, List.flatMap_append]
      exact ⟨by rw [hsigns, hbefore.1, hbehind.1], by rw [hstrays, hbefore.2, hbehind.2]⟩

end Scan

theorem like_of_signs {ts us : List Token} (h : ts.map Token.sign = us.map Token.sign) :
    List.Forall₂ Token.Like ts us := by
  induction ts generalizing us with
  | nil =>
    obtain rfl := List.map_eq_nil_iff.mp h.symm
    exact .nil
  | cons t ts ih =>
    cases us with
    | nil => cases h
    | cons u us =>
      obtain ⟨htu, hrest⟩ := List.cons.inj h
      obtain ⟨hkind, hlexeme⟩ := Prod.mk.inj htu
      exact .cons ⟨hkind, hlexeme⟩ (ih hrest)

/-- Texts of the same chunks are cut into tokens that are alike, and have the same bad characters. -/
theorem ofText_chunks {source source' : String} (h : Text.chunks source.toList = Text.chunks source'.toList)
    (file file' : String) :
    List.Forall₂ Token.Like (Scan.ofText file source).tokens (Scan.ofText file' source').tokens ∧
      (Scan.ofText file source).strays = (Scan.ofText file' source').strays := by
  have hfound := Scan.found_chunks file .origin source.toList
  have hfound' := Scan.found_chunks file .origin source'.toList
  rw [← h] at hfound'
  obtain ⟨hsigns, hstrays⟩ := Scan.found_scanFrom file' file .origin .origin source'.toList
  have hbody : (Scan.ofText file source).signs = (Scan.ofText file' source').signs := by
    rw [Scan.ofText, Scan.ofText, hsigns, hfound.1, hfound'.1]
  refine ⟨?_, by rw [Scan.ofText, Scan.ofText, hstrays, hfound.2, hfound'.2]⟩
  obtain ⟨l, htokens, -⟩ := (Scan.cuts_scanFrom file .origin source.toList).closed
  obtain ⟨l', htokens', -⟩ := (Scan.cuts_scanFrom file' .origin source'.toList).closed
  rw [Scan.ofText, Scan.ofText, htokens, htokens']
  refine like_of_signs ?_
  rw [List.map_append, List.map_append]
  exact congrArg (· ++ _) hbody

end LambdaSyntax
