/-
  LambdaSyntax.Proofs.Relocation — a scan starts afresh behind a blank.

  What is cut off at some place depends on what follows only through the first character behind
  it, and a blank there says as little as the end of the text (`first?_of_head`,
  `first?_none_append`). So a text with a blank somewhere is cut into the pieces of its two sides
  (`Cuts.joined`).

  The right side by itself starts at the first place of its own text. `after pre` says where a place
  is when `pre` stands before that text: lines and offsets move on, columns only on the first line,
  which goes on where the last line of `pre` ends. A scan moves with the position it starts from
  (`Cuts.after`), so the scan of the whole is that of the left side and the moved one of the
  right side (`ofText_joined`).
-/

import LambdaSyntax.Proofs.Places
import LambdaSyntax.Proofs.Separators

namespace LambdaSyntax

variable {file : String} {pre cs rest more v : List Char} {b c : Char} {l : Lexeme} {p : Position}

/-! ## What stands behind a lexeme -/

theorem Closed.of_head (h : Closed v rest) (hr : ∀ c ∈ more.head?, Text.isBlank c = true ∨ c ∈ rest.head?) :
    Closed v more := by
  intro c hc
  rcases hr c hc with hb | hrest
  · have hclosed : Closed v [c] := closed_of_blank hb
    exact hclosed c rfl
  · exact h c hrest

/-- A lexeme is cut off alike before texts that start alike, or with a blank. -/
theorem first?_of_head (h : Lexeme.first? (l.chars ++ rest) = some l)
    (hr : ∀ c ∈ more.head?, Text.isBlank c = true ∨ c ∈ rest.head?) : Lexeme.first? (l.chars ++ more) = some l := by
  have hclass := classOf?_first? h
  exact first?_append hclass ((closed_of_first? h).of_head hr)

/-- Characters without a blank stand before the first blank. -/
theorem prefix_of_no_blank (hb : Text.isBlank b = true) (hv : ∀ c ∈ v, Text.isBlank c = false)
    (h : v <+: cs ++ b :: more) : v <+: cs := by
  have hmem : b ∉ v := by
    intro hbv
    rw [hv b hbv] at hb
    cases hb
  have hcs : cs ++ [b] <+: cs ++ b :: more := ⟨more, by simp⟩
  rcases List.prefix_or_prefix_of_prefix h hcs with hle | hge
  · rcases List.prefix_concat_iff.mp hle with rfl | hle
    · exact absurd (by simp) hmem
    · exact hle
  · exact absurd (hge.mem (by simp)) hmem

theorem first?_none_append (h : Lexeme.first? cs = none) (hb : Text.isBlank b = true) :
    Lexeme.first? (cs ++ b :: more) = none := by
  cases hl : Lexeme.first? (cs ++ b :: more) with
  | none => rfl
  | some l =>
    have hclass := classOf?_first? hl
    have hstart := first?_prefix hl
    have hbefore := prefix_of_no_blank hb (not_blank_of_class hclass) hstart
    rw [classOf?_of_first?_none h hbefore] at hclass
    cases hclass

/-! ## Two texts in one -/

namespace Scan

variable {s t : Scan}

/-- The first scan without its end, and then the second. -/
def joined (s t : Scan) : Scan := ⟨s.body ++ t.tokens, s.errors ++ t.errors⟩

theorem Cuts.joined (h : Cuts file p cs s) (hb : Text.isBlank b = true) (ht : Cuts file (p.pass cs) (b :: rest) t) :
    Cuts file p (cs ++ b :: rest) (s.joined t) := by
  induction h with
  | finish => exact ht
  | blank hc _ ih => exact .blank hc (ih ht)
  | @lexeme p l more s hl _ ih =>
    have hmore : ∀ c ∈ (more ++ b :: rest).head?, Text.isBlank c = true ∨ c ∈ more.head? := by
      cases more with
      | nil => simp [hb]
      | cons d ds => simp
    rw [pass_append] at ht
    rw [List.append_assoc, Scan.joined, body_addToken (kind_ne_finish (classOf?_first? hl))]
    exact .lexeme (first?_of_head hl hmore) (ih ht)
  | bad hc hl _ ih => exact .bad hc (first?_none_append hl hb) (ih ht)

end Scan

/-! ## Places behind a text -/

/-- The place, when the text that it is in has `pre` before it. -/
def Location.after (pre : List Char) (l : Location) : Location where
  file := l.file
  line := l.line + pre.count '\n'
  column := if l.line = 1 then l.column + (pre.reverse.takeWhile (· ≠ '\n')).length else l.column
  offset := l.offset + pre.length

def Token.after (pre : List Char) (t : Token) : Token := { t with loc := t.loc.after pre }

def LexicalError.after (pre : List Char) (e : LexicalError) : LexicalError := { e with loc := e.loc.after pre }

namespace Position

def after (pre : List Char) (p : Position) : Position where
  offset := p.offset + pre.length
  line := p.line + pre.count '\n'
  column := if p.line = 1 then p.column + (pre.reverse.takeWhile (· ≠ '\n')).length else p.column

theorem within_after (pre : List Char) (p : Position) (file : String) :
    (p.after pre).within file = (p.within file).after pre := by
  by_cases h : p.line = 1
  · simp [within, after, Location.after, h]
  · have hline : (p.line : Int) ≠ 1 := by omega
    simp [within, after, Location.after, h, hline]

theorem origin_after (pre : List Char) : origin.after pre = origin.pass pre := by
  have hpass : origin.pass pre = placeAt pre pre.length := by rw [placeAt_eq (Nat.le_refl _), List.take_length]
  rw [hpass]
  simp [after, origin, placeAt, lineAt, columnAt]

theorem line_step (p : Position) (c : Char) : p.line ≤ (p.step c).line := by
  unfold step
  split
  · exact Nat.le_succ _
  · exact Nat.le_refl _

theorem line_pass (p : Position) (cs : List Char) : p.line ≤ (p.pass cs).line := by
  induction cs generalizing p with
  | nil => exact Nat.le_refl _
  | cons c cs ih => exact Nat.le_trans (line_step p c) (ih (p.step c))

/-- A line feed leaves the first line for good, as lines are counted from one. -/
theorem after_step (h : 1 ≤ p.line) (c : Char) : (p.after pre).step c = (p.step c).after pre := by
  unfold step
  split
  · have hline : p.line + 1 ≠ 1 := by omega
    simp only [after, if_neg hline]
    congr 1 <;> omega
  · simp only [after]
    split <;> congr 1 <;> omega

theorem after_pass (h : 1 ≤ p.line) (cs : List Char) : (p.after pre).pass cs = (p.pass cs).after pre := by
  induction cs generalizing p with
  | nil => rfl
  | cons c cs ih =>
    show ((p.after pre).step c).pass cs = ((p.step c).pass cs).after pre
    rw [after_step h, ih (Nat.le_trans h (line_step p c))]

end Position

namespace Scan

def after (pre : List Char) (s : Scan) : Scan := ⟨s.tokens.map (Token.after pre), s.errors.map (LexicalError.after pre)⟩

theorem Cuts.after {s : Scan} (h : Cuts file p cs s) (hp : 1 ≤ p.line) (pre : List Char) :
    Cuts file (p.after pre) cs (s.after pre) := by
  induction h with
  | @finish p =>
    have hend : Cuts file (p.after pre) [] ⟨[.finish ((p.after pre).within file)], []⟩ := .finish
    rw [Position.within_after] at hend
    exact hend
  | @blank p c cs s hb _ ih =>
    refine .blank hb ?_
    rw [Position.after_step hp]
    exact ih (Nat.le_trans hp (Position.line_step p c))
  | @lexeme p l rest s hl _ ih =>
    have hrest := ih (Nat.le_trans hp (Position.line_pass p l.chars))
    rw [← Position.after_pass hp] at hrest
    have hcut := Cuts.lexeme hl hrest
    rw [Position.within_after] at hcut
    exact hcut
  | @bad p c cs s hb hl _ ih =>
    have hrest := ih (Nat.le_trans hp (Position.line_step p c))
    rw [← Position.after_step hp] at hrest
    have hcut := Cuts.bad hb hl hrest
    rw [Position.within_after] at hcut
    exact hcut

theorem scanFrom_joined {ws : List Char} (file : String) (cs : List Char) (hne : ws ≠ [])
    (hws : ∀ c ∈ ws, Text.isBlank c = true) (ds : List Char) :
    scanFrom file 0 .origin (cs ++ ws ++ ds) =
      (scanFrom file 0 .origin cs).joined ((scanFrom file 0 .origin ds).after (cs ++ ws)) := by
  have hfirst := cuts_scanFrom file .origin cs
  have hsecond := (cuts_scanFrom file .origin ds).after (Nat.le_refl 1) (cs ++ ws)
  rw [Position.origin_after, pass_append] at hsecond
  have hblanks := cuts_scanFrom file (Position.origin.pass cs) (ws ++ ds)
  rw [Layout.scanFrom_blanks hws, ← hsecond.eq_scanFrom] at hblanks
  obtain ⟨b, bs, rfl⟩ := List.exists_cons_of_ne_nil hne
  rw [List.append_assoc]
  exact (hfirst.joined (hws b (by simp)) hblanks).eq_scanFrom.symm

end Scan

/-- Two texts with blanks between them are cut as each by itself: the tokens of the first without
    its end are followed by those of the second, moved behind the first text and the blanks. The
    same goes for the errors. -/
theorem ofText_joined (file s₁ w s₂ : String) (hne : w ≠ "") (hw : ∀ c ∈ w.toList, Text.isBlank c = true) :
    (Scan.ofText file (s₁ ++ w ++ s₂)).tokens =
      (Scan.ofText file s₁).body ++ (Scan.ofText file s₂).tokens.map (Token.after (s₁ ++ w).toList) ∧
    (Scan.ofText file (s₁ ++ w ++ s₂)).errors =
      (Scan.ofText file s₁).errors ++ (Scan.ofText file s₂).errors.map (LexicalError.after (s₁ ++ w).toList) := by
  have hjoined := Scan.scanFrom_joined file s₁.toList (by simpa using hne) hw s₂.toList
  rw [← String.toList_append, ← String.toList_append] at hjoined
  exact ⟨congrArg Scan.tokens hjoined, congrArg Scan.errors hjoined⟩

theorem ofText_joined_lines : "\n " ≠ "" ∧ (∀ c ∈ "\n ".toList, Text.isBlank c = true) ∧
    (Scan.ofText "f" ("a?\nb=" ++ "\n " ++ "= -\n>")).tokens =
      (Scan.ofText "f" "a?\nb=").body ++ (Scan.ofText "f" "= -\n>").tokens.map (Token.after "a?\nb=\n ".toList) ∧
    (Scan.ofText "f" ("a?\nb=" ++ "\n " ++ "= -\n>")).errors =
      (Scan.ofText "f" "a?\nb=").errors ++ (Scan.ofText "f" "= -\n>").errors.map (LexicalError.after "a?\nb=\n ".toList) := by
  have hne : "\n " ≠ "" := by decide
  have hw : ∀ c ∈ "\n ".toList, Text.isBlank c = true := by
    rw [← List.all_eq_true]
    decide
  exact ⟨hne, hw, ofText_joined "f" "a?\nb=" "\n " "= -\n>" hne hw⟩

end LambdaSyntax
