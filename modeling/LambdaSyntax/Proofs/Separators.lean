/-
  LambdaSyntax.Proofs.Separators — which lexemes need blanks between them.

  A `Layout` writes lexemes one after another, with any blanks or none before, between and behind
  them. Without blanks a word runs into a word or number behind it, a number into a number, and
  `-` into `>`; no other two lexemes run into one another (`closed_iff`), as only these are
  continued by the first character of the other (`longer_iff`).

  So a scan gives the lexemes of a layout back, without an error, where blanks stand between those
  that run into one another (`Layout.spaced_charsOf`). Where they are missing once, it does not: what is cut
  off at the earlier lexeme is longer (`separated_of_scan`).
-/

import Mathlib.Data.List.Chain
import LambdaSyntax.Proofs.Longest

namespace LambdaSyntax

variable {c d : Char} {cs ds rest v w : List Char} {k j : Kind}

/-- Does `v`, with nothing behind it, run into `w`? -/
def runsInto (v w : List Char) : Bool :=
  isWord v && (isWord w || Literal.isDigits w) || Literal.isDigits v && Literal.isDigits w ||
    v = ['-'] && w = ['>']

/-! ## The first character settles the class -/

theorem isWordChar_eq (c : Char) : isWordChar c = (isWordStart c || c.isDigit) := by
  simp [isWordChar, isWordStart, Char.isAlphanum, Bool.or_assoc]

theorem spelled?_of_head (h : c.isDigit = true ∨ isWordStart c = true) : spelled? Kind.operators (c :: cs) = none := by
  cases ho : spelled? Kind.operators (c :: cs) with
  | none => rfl
  | some k =>
    obtain ⟨o, os, hcs, -, hd, hw, -⟩ := operator_chars ho
    obtain rfl := (List.cons.inj hcs).1
    simp [hd, hw] at h

theorem not_word_of_digits (h : Literal.isDigits v = true) : isWord v = false := by
  rw [← Bool.not_eq_true]
  intro hw
  rw [not_digits_of_word hw] at h
  cases h

theorem isSome_of_digit (hd : c.isDigit = true) : (classOf? (c :: cs)).isSome = Literal.isDigits (c :: cs) := by
  rw [classOf?, spelled?_of_head (.inl hd)]
  by_cases h : Literal.isDigits (c :: cs) = true <;> simp [h, isWord, digit_not_wordStart hd]

theorem isSome_of_wordStart (hw : isWordStart c = true) : (classOf? (c :: cs)).isSome = isWord (c :: cs) := by
  have hd : Literal.isDigits (c :: cs) = false := by simp [Literal.isDigits, isWordStart_not_digit hw]
  rw [classOf?, spelled?_of_head (.inr hw), hd]
  by_cases h : isWord (c :: cs) = true <;> simp [h]

theorem isDigits_eq_head (h : classOf? (d :: ds) = some j) : Literal.isDigits (d :: ds) = d.isDigit := by
  by_cases hd : d.isDigit = true
  · rw [hd, ← isSome_of_digit hd, h, Option.isSome_some]
  · simp [Literal.isDigits, hd]

theorem isWord_eq_head (h : classOf? (d :: ds) = some j) : isWord (d :: ds) = isWordStart d := by
  by_cases hw : isWordStart d = true
  · rw [hw, ← isSome_of_wordStart hw, h, Option.isSome_some]
  · simp [isWord, hw]

/-! ## Lexemes that go on -/

theorem isSome_digits_snoc (hv : Literal.isDigits v = true) : (classOf? (v ++ [d])).isSome = d.isDigit := by
  cases v with
  | nil => cases hv
  | cons c v =>
    have hc : c.isDigit = true := digits_of_isDigits hv c (by simp)
    rw [List.cons_append, isSome_of_digit hc, ← List.cons_append, isDigits_snoc hv]

theorem isSome_word_snoc (hv : isWord v = true) : (classOf? (v ++ [d])).isSome = isWordChar d := by
  cases v with
  | nil => cases hv
  | cons c v =>
    obtain ⟨hc, -⟩ : isWordStart c = true ∧ v.all isWordChar = true := by rwa [isWord, Bool.and_eq_true] at hv
    rw [List.cons_append, isSome_of_wordStart hc, ← List.cons_append, isWord_snoc hv]

/-- Of the operators only the minus sign goes on. -/
theorem operator_snoc (hv : spelled? Kind.operators v = some k) (h : spelled? Kind.operators (v ++ [d]) = some j) :
    v = ['-'] ∧ d = '>' := by
  obtain ⟨o, os, rfl, -, -, -, -⟩ := operator_chars hv
  obtain ⟨o', os', hcons, hlen, -, -, -⟩ := operator_chars h
  have hnil : os = [] := by
    have hlength := congrArg List.length hcons
    simp at hlength
    exact List.length_eq_zero_iff.mp (by omega)
  subst hnil
  obtain ⟨hmem, hs⟩ := spelled?_eq_some h
  have hchars : j.spelling?.map String.toList = some [o, d] := by simp [hs]
  cases j with
  | arrow =>
    obtain ⟨rfl, rfl⟩ : '-' = o ∧ '>' = d := by simpa [Kind.spelling?] using hchars
    exact ⟨rfl, rfl⟩
  | equal =>
    obtain ⟨rfl, rfl⟩ : '=' = o ∧ '=' = d := by simpa [Kind.spelling?] using hchars
    have hnone : spelled? Kind.operators ['='] = none := by decide
    rw [hnone] at hv
    cases hv
  | _ => first | exact absurd hmem (by decide) | simp [Kind.spelling?] at hchars

theorem greater_alone (hw : classOf? ('>' :: ds) = some j) : ds = [] := by
  rw [classOf?_operator (by decide) (by decide)] at hw
  obtain ⟨o, os, hcons, hlen, -⟩ := operator_chars hw
  obtain ⟨rfl, rfl⟩ := List.cons.inj hcons
  cases ds with
  | nil => rfl
  | cons e es =>
    obtain rfl : es = [] := by simpa using hlen
    exact absurd (operator_snoc (v := ['>']) (k := .greater) (by decide) hw).1 (by decide)

theorem isSome_operator_snoc (hv : spelled? Kind.operators v = some k) (hw : classOf? (d :: ds) = some j) :
    (classOf? (v ++ [d])).isSome = (v = ['-'] && d :: ds = ['>']) := by
  rw [Bool.eq_iff_iff, Bool.and_eq_true, decide_eq_true_eq, decide_eq_true_eq]
  constructor
  · intro hsome
    obtain ⟨o, os, rfl, -, hod, how, -⟩ := operator_chars hv
    rw [List.cons_append, classOf?_operator hod how, ← List.cons_append] at hsome
    obtain ⟨k', hk'⟩ := Option.isSome_iff_exists.mp hsome
    obtain ⟨hminus, rfl⟩ := operator_snoc hv hk'
    exact ⟨hminus, by rw [greater_alone hw]⟩
  · intro h
    obtain ⟨rfl, hgreater⟩ := h
    obtain ⟨rfl, -⟩ := List.cons.inj hgreater
    decide

/-- A lexeme is continued by the first character of those that it runs into. -/
theorem longer_iff (hv : classOf? v = some k) (hw : classOf? (d :: ds) = some j) :
    (classOf? (v ++ [d])).isSome = runsInto v (d :: ds) := by
  rw [runsInto]
  rcases classOf?_cases hv with ⟨hd, -⟩ | ⟨hword, -⟩ | ho
  · have hminus : v ≠ ['-'] := by
      rintro rfl
      cases hd
    simp [isSome_digits_snoc hd, isDigits_eq_head hw, hd, not_word_of_digits hd, hminus]
  · have hminus : v ≠ ['-'] := by
      rintro rfl
      cases hword
    simp [isSome_word_snoc hword, isWordChar_eq, isDigits_eq_head hw, isWord_eq_head hw, hword,
      not_digits_of_word hword, hminus]
  · obtain ⟨o, os, rfl, -, hod, how, -⟩ := operator_chars ho
    rw [isSome_operator_snoc ho hw]
    simp [Literal.isDigits, isWord, hod, how]

theorem closed_iff (hv : classOf? v = some k) (hw : classOf? w = some j) :
    Closed v (w ++ rest) ↔ runsInto v w = false := by
  cases w with
  | nil => cases hw
  | cons d ds => rw [← longer_iff hv hw, Option.isSome_eq_false_iff, Option.isNone_iff_eq_none]; simp [Closed]

/-- Nothing makes longer what is cut off. -/
theorem closed_of_first? (h : Lexeme.first? (v ++ rest) = some ⟨k, v⟩) : Closed v rest := by
  intro c hc
  obtain ⟨more, rfl⟩ := List.head?_eq_some_iff.mp hc
  rw [← Option.not_isSome_iff_eq_none]
  intro hlonger
  have hle : (v ++ [c]).length ≤ v.length := (first?_longest h).maximal _ ⟨more, by simp⟩ hlonger
  rw [List.length_append, List.length_singleton] at hle
  omega

/-! ## Layouts -/

/-- A lexeme and the blanks behind it. -/
structure Laid where
  word : String
  kind : Kind
  class_eq : classOf? word.toList = some kind
  gap : List Char
  gap_blank : ∀ c ∈ gap, Text.isBlank c = true

structure Layout where
  lead : List Char
  lead_blank : ∀ c ∈ lead, Text.isBlank c = true
  laid : List Laid

namespace Layout

def charsOf (xs : List Laid) : List Char := xs.flatMap fun x => x.word.toList ++ x.gap

def text (x : Layout) : String := String.ofList (x.lead ++ charsOf x.laid)

def words (x : Layout) : List String := x.laid.map Laid.word

/-- Blanks stand between lexemes that run into one another. -/
def Separated (xs : List Laid) : Prop :=
  xs.IsChain fun x y => runsInto x.word.toList y.word.toList = true → x.gap ≠ []

instance (xs : List Laid) : Decidable (Separated xs) := inferInstanceAs (Decidable (List.IsChain _ xs))

/-- The scan has no error, and the tokens are the lexemes in order, each of its kind, and the end. -/
structure GivenBack (x : Layout) (s : Scan) : Prop where
  errors : s.errors = []
  tokens : s.tokens.map (fun t => (t.kind, t.lexeme)) = x.laid.map (fun y => (y.kind, y.word)) ++ [(.finish, "")]

variable {x : Laid} {xs : List Laid}

theorem charsOf_cons : charsOf (x :: xs) = x.word.toList ++ (x.gap ++ charsOf xs) := by
  simp [charsOf]

theorem spaced_blanks {ws : List String} (hb : ∀ c ∈ cs, Text.isBlank c = true) (h : Spaced rest ws) :
    Spaced (cs ++ rest) ws := by
  induction cs with
  | nil => exact h
  | cons c cs ih =>
    rw [List.forall_mem_cons] at hb
    exact .blank hb.1 (ih hb.2)

theorem spaced_charsOf (h : Separated xs) : Spaced (charsOf xs) (xs.map Laid.word) := by
  induction xs with
  | nil => exact .nil
  | cons x xs ih =>
    rw [charsOf_cons]
    refine .word (by simp [x.class_eq]) ?_ (spaced_blanks x.gap_blank (ih h.tail))
    cases hgap : x.gap with
    | cons c gap =>
      have hblank := x.gap_blank
      rw [hgap, List.forall_mem_cons] at hblank
      exact closed_of_blank hblank.1
    | nil =>
      cases xs with
      | nil => exact closed_nil
      | cons y ys =>
        have hxy := (List.isChain_cons_cons.mp h).1
        rw [List.nil_append, charsOf_cons, closed_iff x.class_eq y.class_eq]
        rw [← Bool.not_eq_true]
        exact fun hruns => hxy hruns hgap

theorem scanFrom_blanks {file : String} {p : Position} (hb : ∀ c ∈ cs, Text.isBlank c = true) :
    Scan.scanFrom file 0 p (cs ++ rest) = Scan.scanFrom file 0 (p.pass cs) rest := by
  induction cs generalizing p with
  | nil => rfl
  | cons c cs ih =>
    rw [List.forall_mem_cons] at hb
    rw [List.cons_append, Scan.scanFrom, if_pos hb.1, ih hb.2]
    rfl

/-- Where the lexemes of a layout are given back, each was the longest at its place. -/
theorem separated_of_scan {file : String} {p : Position}
    (h : (Scan.scanFrom file 0 p (charsOf xs)).body.map Token.lexeme = xs.map Laid.word) : Separated xs := by
  induction xs generalizing p with
  | nil => exact .nil
  | cons x xs ih =>
    obtain ⟨l, hl, -⟩ := first?_covers x.class_eq (x.gap ++ charsOf xs)
    obtain ⟨more, hmore⟩ := first?_prefix hl
    have hclass := classOf?_first? hl
    rw [charsOf_cons, ← hmore, Scan.scanFrom_lexeme (by rw [hmore]; exact hl),
      Scan.body_addToken (Scan.kind_ne_finish hclass), List.map_cons, List.map_cons] at h
    obtain ⟨hhead, htail⟩ := List.cons.inj h
    have hword : l.chars = x.word.toList := by simpa [Lexeme.token] using congrArg String.toList hhead
    obtain rfl : more = x.gap ++ charsOf xs := by
      rw [hword] at hmore
      exact List.append_cancel_left hmore
    rw [scanFrom_blanks x.gap_blank] at htail
    have hrest := ih htail
    cases xs with
    | nil => exact .singleton _
    | cons y ys =>
      refine List.isChain_cons_cons.mpr ⟨?_, hrest⟩
      intro hruns hgap
      obtain ⟨k, chars⟩ := l
      obtain rfl : chars = x.word.toList := hword
      have hclosed := closed_of_first? hl
      rw [hgap, List.nil_append, charsOf_cons, closed_iff x.class_eq y.class_eq, hruns] at hclosed
      cases hclosed

theorem pairs_of_spelled {ts : List Token} (h : Spelled ts (xs.map Laid.word)) :
    ts.map (fun t => (t.kind, t.lexeme)) = xs.map fun x => (x.kind, x.word) := by
  induction xs generalizing ts with
  | nil =>
    obtain rfl := h.nil
    rfl
  | cons x xs ih =>
    obtain ⟨t, us, rfl, hlexeme, hkind, hrest⟩ := h.cons x.class_eq
    rw [List.map_cons, List.map_cons, hlexeme, hkind, ih hrest]

end Layout

theorem ofText_eq_scanFrom (file : String) (x : Layout) :
    Scan.ofText file x.text = Scan.scanFrom file 0 (Position.origin.pass x.lead) (Layout.charsOf x.laid) := by
  rw [Scan.ofText, Layout.text, String.toList_ofList, Layout.scanFrom_blanks x.lead_blank]

/-- A scan gives back the lexemes of a layout if blanks stand between those that run into one
    another, and if they are missing somewhere it gives other ones. -/
theorem ofText_layout (file : String) (x : Layout) :
    (Layout.Separated x.laid → x.GivenBack (Scan.ofText file x.text)) ∧
    (¬Layout.Separated x.laid → (Scan.ofText file x.text).body.map Token.lexeme ≠ x.words) := by
  rw [ofText_eq_scanFrom]
  constructor
  · intro h
    obtain ⟨ts, l, hcuts, hs⟩ := (Layout.spaced_charsOf h).cuts file (Position.origin.pass x.lead)
    rw [← hcuts.eq_scanFrom]
    refine ⟨rfl, ?_⟩
    rw [List.map_append, Layout.pairs_of_spelled hs]
    rfl
  · intro h hback
    exact h (Layout.separated_of_scan hback)

theorem ofText_layout_signs : ∃ x y : Layout, x.text = " 12ab<==-->x y\n" ∧ Layout.Separated x.laid ∧
    x.GivenBack (Scan.ofText "" x.text) ∧ y.text = "a->" ∧ ¬Layout.Separated y.laid ∧
    (Scan.ofText "" y.text).body.map Token.lexeme ≠ y.words := by
  refine ⟨⟨[' '], List.all_eq_true.mp rfl, [⟨"12", .integer, by decide, [], List.all_eq_true.mp rfl⟩,
      ⟨"ab", .identifier, by decide, [], List.all_eq_true.mp rfl⟩, ⟨"<", .less, by decide, [], List.all_eq_true.mp rfl⟩,
      ⟨"==", .equal, by decide, [], List.all_eq_true.mp rfl⟩, ⟨"-", .minus, by decide, [], List.all_eq_true.mp rfl⟩,
      ⟨"->", .arrow, by decide, [], List.all_eq_true.mp rfl⟩,
      ⟨"x", .identifier, by decide, [' '], List.all_eq_true.mp rfl⟩,
      ⟨"y", .identifier, by decide, ['\n'], List.all_eq_true.mp rfl⟩]⟩,
    ⟨[], List.all_eq_true.mp rfl, [⟨"a", .identifier, by decide, [], List.all_eq_true.mp rfl⟩,
      ⟨"-", .minus, by decide, [], List.all_eq_true.mp rfl⟩,
      ⟨">", .greater, by decide, [], List.all_eq_true.mp rfl⟩]⟩, by decide, ?_, ?_, by decide, ?_, ?_⟩
  · decide
  · exact (ofText_layout _ _).1 (by decide)
  · decide
  · exact (ofText_layout _ _).2 (by decide)

end LambdaSyntax
