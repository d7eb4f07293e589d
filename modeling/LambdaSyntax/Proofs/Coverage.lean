/-
  LambdaSyntax.Proofs.Coverage — a scan loses nothing of its text and takes nothing twice.

  A token and an error each are a piece of the text: the characters that they were read from, at
  the place where they stand. In the order in which they are read the pieces tile the text but
  for its blanks (`Cuts.tiles`). So the pieces are apart, they are the slices of the text
  at their places, and the characters that none of them holds are the blanks
  (`Scan.Accounts`). The error that `tokenize` reports is the first character that is in no
  token and not blank.
-/

import LambdaSyntax.Proofs.Cuts

namespace LambdaSyntax

theorem pass_append (p : Position) (cs ds : List Char) : p.pass (cs ++ ds) = (p.pass cs).pass ds :=
  List.foldl_append

/-! ## Pieces -/

/-- Characters at a place of a text. -/
structure Piece where
  start : Int
  text : List Char
  deriving DecidableEq

namespace Piece

def stop (x : Piece) : Int := x.start + x.text.length

/-- The half-open range of the piece holds a place. -/
def Holds (x : Piece) (i : Int) : Prop := x.start ≤ i ∧ i < x.stop

def Apart (x y : Piece) : Prop := ∀ i, x.Holds i → ¬y.Holds i

def Before (x y : Piece) : Prop := x.start < x.stop ∧ x.stop ≤ y.start

/-- The piece is what the text has at its place. -/
structure SliceOf (x : Piece) (cs : List Char) : Prop where
  start_nonneg : 0 ≤ x.start
  text_eq : (cs.drop x.start.toNat).take x.text.length = x.text

theorem Before.apart {x y : Piece} (h : x.Before y) : x.Apart y := by
  intro i hx hy
  have := h.2
  have := hx.2
  have := hy.1
  omega

theorem Apart.symm {x y : Piece} (h : x.Apart y) : y.Apart x := fun i hy hx => h i hx hy

end Piece

def Token.piece (t : Token) : Piece := ⟨t.loc.offset, t.lexeme.toList⟩

def LexicalError.piece (e : LexicalError) : Piece := ⟨e.loc.offset, [e.char]⟩

/-! ## Tiles -/

/-- From place `o` on the text is these pieces in this order, with blanks between them. -/
inductive Tiles : Nat → List Char → List Piece → Prop
  | nil {o : Nat} : Tiles o [] []
  | blank {o : Nat} {c : Char} {cs : List Char} {xs : List Piece} :
      Text.isBlank c = true → Tiles (o + 1) cs xs → Tiles o (c :: cs) xs
  | piece {o : Nat} {w cs : List Char} {xs : List Piece} :
      w ≠ [] → (∀ c ∈ w, Text.isBlank c = false) → Tiles (o + w.length) cs xs → Tiles o (w ++ cs) (⟨o, w⟩ :: xs)

namespace Tiles

variable {o : Nat} {cs : List Char} {xs : List Piece} {x : Piece}

theorem text_ne_nil (h : Tiles o cs xs) : ∀ x ∈ xs, x.text ≠ [] := by
  induction h with
  | nil => simp
  | blank _ _ ih => exact ih
  | piece hw _ _ ih => exact List.forall_mem_cons.mpr ⟨hw, ih⟩

theorem le_start (h : Tiles o cs xs) : ∀ x ∈ xs, (o : Int) ≤ x.start := by
  induction h with
  | nil => simp
  | blank _ _ ih =>
    intro x hx
    have := ih x hx
    omega
  | piece _ _ _ ih =>
    refine List.forall_mem_cons.mpr ⟨Int.le_refl _, ?_⟩
    intro x hx
    have := ih x hx
    omega

theorem before (h : Tiles o cs xs) : xs.Pairwise Piece.Before := by
  induction h with
  | nil => exact .nil
  | blank _ _ ih => exact ih
  | @piece o w cs xs hw _ hrest ih =>
    refine .cons ?_ ih
    intro x hx
    have hpos := List.length_pos_iff.mpr hw
    have hle := hrest.le_start x hx
    simp only [Piece.Before, Piece.stop]
    omega

theorem text_eq (h : Tiles o cs xs) : ∀ x ∈ xs, (cs.drop (x.start.toNat - o)).take x.text.length = x.text := by
  induction h with
  | nil => simp
  | @blank o c cs xs _ hrest ih =>
    intro x hx
    have hle := hrest.le_start x hx
    rw [show x.start.toNat - o = (x.start.toNat - (o + 1)) + 1 by omega]
    exact ih x hx
  | @piece o w cs xs _ _ hrest ih =>
    refine List.forall_mem_cons.mpr ⟨by simp, ?_⟩
    intro x hx
    have hle := hrest.le_start x hx
    rw [show x.start.toNat - o = w.length + (x.start.toNat - (o + w.length)) by omega, ← List.drop_drop,
      List.drop_left]
    exact ih x hx

/-- No piece holds a place before the text. -/
theorem not_holds (h : Tiles o cs xs) {i : Nat} (hi : i < o) : ¬∃ x ∈ xs, x.Holds i := by
  intro hx
  obtain ⟨x, hx, hholds⟩ := hx
  have hle := h.le_start x hx
  have hstart := hholds.1
  omega

/-- A character is in a piece unless it is blank. -/
theorem holds_iff (h : Tiles o cs xs) {i : Nat} {c : Char} (hc : cs[i]? = some c) :
    Text.isBlank c = false ↔ ∃ x ∈ xs, x.Holds (o + i : Nat) := by
  induction h generalizing i with
  | nil => cases hc
  | @blank o d cs xs hb hrest ih =>
    cases i with
    | zero =>
      obtain rfl : d = c := by simpa using hc
      simp [hb, hrest.not_holds (show o < o + 1 by omega)]
    | succ i =>
      rw [show o + (i + 1) = o + 1 + i by omega]
      exact ih (by simpa using hc)
  | @piece o w cs xs hw hnb hrest ih =>
    simp only [List.mem_cons, exists_eq_or_imp]
    by_cases hi : i < w.length
    · rw [List.getElem?_append_left hi] at hc
      have hhead : (⟨o, w⟩ : Piece).Holds (o + i : Nat) := by
        simp only [Piece.Holds, Piece.stop]
        omega
      exact ⟨fun _ => .inl hhead, fun _ => hnb c (List.mem_of_getElem? hc)⟩
    · rw [List.getElem?_append_right (by omega)] at hc
      have hhead : ¬(⟨o, w⟩ : Piece).Holds (o + i : Nat) := by
        simp only [Piece.Holds, Piece.stop]
        omega
      rw [ih hc, show o + w.length + (i - w.length) = o + i by omega]
      exact ⟨.inr, fun h => h.resolve_left hhead⟩

end Tiles

/-! ## The pieces of a scan -/

namespace Scan

/-- The tokens of the text itself. -/
def body (s : Scan) : List Token := s.tokens.filter (·.kind ≠ .finish)

def pieces (s : Scan) : List Piece := s.body.map Token.piece ++ s.errors.map LexicalError.piece

variable {file : String} {p : Position} {cs : List Char} {s : Scan}

theorem kind_ne_finish {k : Kind} (h : classOf? cs = some k) : k ≠ .finish := by
  intro hk
  rw [hk] at h
  exact classOf?_ne_finish h

theorem body_addToken {t : Token} (h : t.kind ≠ .finish) : (s.addToken t).body = t :: s.body := by
  simp [body, addToken, h]

theorem offset_step (p : Position) (c : Char) : (p.step c).offset = p.offset + 1 := by
  unfold Position.step
  split <;> rfl

theorem offset_pass (p : Position) (cs : List Char) : (p.pass cs).offset = p.offset + cs.length := by
  induction cs generalizing p with
  | nil => rfl
  | cons c cs ih =>
    have hstep := ih (p.step c)
    rw [offset_step] at hstep
    rw [List.length_cons, show p.offset + (cs.length + 1) = p.offset + 1 + cs.length by omega]
    exact hstep

/-- Behind the tokens of the text stands its end, and nothing else. -/
theorem Cuts.ended (h : Cuts file p cs s) : s.tokens = s.body ++ [.finish ((p.pass cs).within file)] := by
  induction h with
  | finish => rfl
  | blank _ _ ih | bad _ _ _ ih => exact ih
  | @lexeme p x rest s hx _ ih =>
    have hk : (x.token (p.within file)).kind ≠ .finish := kind_ne_finish (classOf?_first? hx)
    rw [body_addToken hk, pass_append]
    exact congrArg (x.token (p.within file) :: ·) ih

theorem Cuts.closed (h : Cuts file p cs s) :
    ∃ l : Location, s.tokens = s.body ++ [.finish l] ∧ l.offset = (p.offset + cs.length : Nat) :=
  ⟨_, h.ended, congrArg Int.ofNat (offset_pass p cs)⟩

/-- In the order in which they are read the pieces tile the text. -/
theorem Cuts.tiles (h : Cuts file p cs s) : ∃ xs, Tiles p.offset cs xs ∧ xs.Perm s.pieces ∧
    (s.body.map Token.piece).Sublist xs ∧ (s.errors.map LexicalError.piece).Sublist xs := by
  induction h with
  | finish => exact ⟨[], .nil, .refl _, .refl _, .refl _⟩
  | @blank p c cs s hb _ ih =>
    obtain ⟨xs, hxs, hperm, ht, he⟩ := ih
    rw [offset_step] at hxs
    exact ⟨xs, .blank hb hxs, hperm, ht, he⟩
  | @lexeme p x rest s hx _ ih =>
    obtain ⟨xs, hxs, hperm, ht, he⟩ := ih
    have hclass := classOf?_first? hx
    have hk : (x.token (p.within file)).kind ≠ .finish := kind_ne_finish hclass
    have hpiece : (x.token (p.within file)).piece = ⟨p.offset, x.chars⟩ := by
      simp [Token.piece, Lexeme.token, Position.within]
    rw [offset_pass] at hxs
    refine ⟨_, .piece (ne_nil_of_class hclass) (not_blank_of_class hclass) hxs, ?_, ?_, ?_⟩
    · rw [pieces, body_addToken hk, List.map_cons, hpiece]
      exact hperm.cons _
    · rw [body_addToken hk, List.map_cons, hpiece]
      exact ht.cons_cons _
    · exact he.cons _
  | @bad p c cs s hb _ _ ih =>
    obtain ⟨xs, hxs, hperm, ht, he⟩ := ih
    rw [offset_step] at hxs
    refine ⟨⟨p.offset, [c]⟩ :: xs, .piece (w := [c]) (by simp) (by simpa using hb) hxs, ?_, ?_, ?_⟩
    · exact (hperm.cons _).trans List.perm_middle.symm
    · exact ht.cons _
    · exact he.cons_cons _

/-- What the tokens and errors of a scan say about its text. -/
structure Accounts (s : Scan) (cs : List Char) : Prop where
  closed : ∃ l : Location, s.tokens = s.body ++ [.finish l] ∧ l.offset = cs.length
  text_ne_nil : ∀ x ∈ s.pieces, x.text ≠ []
  apart : s.pieces.Pairwise Piece.Apart
  tokens_ordered : s.body.Pairwise fun t u => t.loc.offset < u.loc.offset
  errors_ordered : s.errors.Pairwise fun d e => d.loc.offset < e.loc.offset
  slices : ∀ x ∈ s.pieces, x.SliceOf cs
  covered {i : Nat} {c : Char} : cs[i]? = some c → (Text.isBlank c = false ↔ ∃ x ∈ s.pieces, x.Holds i)

theorem Cuts.accounts (h : Cuts file p cs s) (hp : p.offset = 0) : s.Accounts cs := by
  obtain ⟨xs, hxs, hperm, ht, he⟩ := h.tiles
  rw [hp] at hxs
  have hmem : ∀ {x}, x ∈ s.pieces ↔ x ∈ xs := fun {x} => hperm.mem_iff.symm
  constructor
  · simpa [hp] using h.closed
  · exact fun x hx => hxs.text_ne_nil x (hmem.mp hx)
  · exact (hperm.pairwise_iff Piece.Apart.symm).mp (hxs.before.imp Piece.Before.apart)
  · refine (List.pairwise_map.mp (hxs.before.sublist ht)).imp ?_
    intro t u hbefore
    exact Int.lt_of_lt_of_le hbefore.1 hbefore.2
  · refine (List.pairwise_map.mp (hxs.before.sublist he)).imp ?_
    intro d e hbefore
    exact Int.lt_of_lt_of_le hbefore.1 hbefore.2
  · intro x hx
    exact ⟨by simpa using hxs.le_start x (hmem.mp hx), by simpa using hxs.text_eq x (hmem.mp hx)⟩
  · intro i c hc
    rw [hxs.holds_iff hc]
    simp [hmem]

/-- A character that is not blank stands in no token. -/
structure Stray (s : Scan) (cs : List Char) (i : Nat) (c : Char) : Prop where
  at_place : cs[i]? = some c
  not_blank : Text.isBlank c = false
  not_held : ∀ t ∈ s.body, ¬t.piece.Holds i

variable {i : Nat} {c : Char} {e : LexicalError}

theorem Accounts.char_eq (h : s.Accounts cs) (he : e ∈ s.errors) (hi : e.loc.offset = i) : cs[i]? = some e.char := by
  have hslice := h.slices e.piece (List.mem_append_right _ (List.mem_map_of_mem he))
  have htext : (cs.drop e.loc.offset.toNat).take 1 = [e.char] := hslice.text_eq
  have hhead := congrArg List.head? htext
  simpa [hi, List.head?_take, List.head?_drop] using hhead

theorem holds_error (e : LexicalError) (i : Int) : e.piece.Holds i ↔ e.loc.offset = i := by
  simp only [Piece.Holds, Piece.stop, LexicalError.piece, List.length_singleton]
  omega

/-- The stray characters are those that errors report. -/
theorem Accounts.stray_iff (h : s.Accounts cs) : s.Stray cs i c ↔ ∃ e ∈ s.errors, e.loc.offset = i ∧ e.char = c := by
  constructor
  · intro hs
    obtain ⟨x, hx, hholds⟩ := (h.covered hs.at_place).mp hs.not_blank
    rcases List.mem_append.mp hx with hx | hx
    · obtain ⟨t, ht, rfl⟩ := List.mem_map.mp hx
      exact absurd hholds (hs.not_held t ht)
    · obtain ⟨e, he, rfl⟩ := List.mem_map.mp hx
      have hi := (holds_error e i).mp hholds
      refine ⟨e, he, hi, ?_⟩
      rw [← Option.some.injEq, ← h.char_eq he hi, hs.at_place]
  · intro hs
    obtain ⟨e, he, hi, rfl⟩ := hs
    have hx : e.piece ∈ s.pieces := List.mem_append_right _ (List.mem_map_of_mem he)
    have hholds := (holds_error e i).mpr hi
    have hat := h.char_eq he hi
    refine ⟨hat, (h.covered hat).mpr ⟨_, hx, hholds⟩, ?_⟩
    intro t ht htok
    have hapart := (List.pairwise_append.mp h.apart).2.2
    exact hapart _ (List.mem_map_of_mem ht) _ (List.mem_map_of_mem he) i htok hholds

theorem Accounts.stray (h : s.Accounts cs) (he : e ∈ s.errors) :
    ∃ i : Nat, e.loc.offset = i ∧ s.Stray cs i e.char := by
  have hslice := h.slices e.piece (List.mem_append_right _ (List.mem_map_of_mem he))
  obtain ⟨i, hi⟩ := Int.eq_ofNat_of_zero_le hslice.start_nonneg
  exact ⟨i, hi, h.stray_iff.mpr ⟨e, he, hi, rfl⟩⟩

theorem Accounts.le_stray (h : s.Accounts cs) {es : List LexicalError} (he : s.errors = e :: es) {j : Nat} {d : Char}
    (hs : s.Stray cs j d) : e.loc.offset ≤ j := by
  obtain ⟨f, hf, hj, -⟩ := h.stray_iff.mp hs
  have hordered := h.errors_ordered
  rw [he] at hf hordered
  rcases List.mem_cons.mp hf with rfl | hf
  · exact Int.le_of_eq hj
  · have hlt := (List.pairwise_cons.mp hordered).1 f hf
    omega

end Scan

theorem tokenize_eq_error {file source : String} {e : LexicalError} :
    tokenize file source = .error e ↔ ∃ es, (Scan.ofText file source).errors = e :: es := by
  unfold tokenize
  cases h : (Scan.ofText file source).errors with
  | nil => simp [h]
  | cons d ds => simp [h]

/-- A scan accounts for its text character by character. A text is refused exactly when there is
    a stray character, and the error reports the first one. -/
theorem ofText_accounts (file source : String) : (Scan.ofText file source).Accounts source.toList ∧
    ((∃ e, tokenize file source = .error e) ↔ ∃ i c, (Scan.ofText file source).Stray source.toList i c) ∧
    ∀ e, tokenize file source = .error e → ∃ i : Nat, e.loc.offset = i ∧
      (Scan.ofText file source).Stray source.toList i e.char ∧
      ∀ j d, (Scan.ofText file source).Stray source.toList j d → i ≤ j := by
  have h : (Scan.ofText file source).Accounts source.toList :=
    (Scan.cuts_scanFrom file .origin source.toList).accounts rfl
  refine ⟨h, ⟨?_, ?_⟩, ?_⟩
  · intro hfail
    obtain ⟨e, he⟩ := hfail
    obtain ⟨es, hes⟩ := tokenize_eq_error.mp he
    obtain ⟨i, -, hs⟩ := h.stray (e := e) (by simp [hes])
    exact ⟨i, _, hs⟩
  · intro hs
    obtain ⟨i, c, hs⟩ := hs
    obtain ⟨e, he, -⟩ := h.stray_iff.mp hs
    obtain ⟨d, ds, hds⟩ := List.exists_cons_of_ne_nil (List.ne_nil_of_mem he)
    exact ⟨d, tokenize_eq_error.mpr ⟨ds, hds⟩⟩
  · intro e he
    obtain ⟨es, hes⟩ := tokenize_eq_error.mp he
    obtain ⟨i, hi, hs⟩ := h.stray (e := e) (by simp [hes])
    refine ⟨i, hi, hs, ?_⟩
    intro j d hj
    have hle := h.le_stray hes hj
    omega

theorem ofText_accounts_sign : (Scan.ofText "" "a + ?").Accounts ['a', ' ', '+', ' ', '?'] ∧
    ∃ e, tokenize "" "a + ?" = .error e ∧ ∃ i : Nat, e.loc.offset = i ∧
      (Scan.ofText "" "a + ?").Stray ['a', ' ', '+', ' ', '?'] i e.char ∧
      ∀ j d, (Scan.ofText "" "a + ?").Stray ['a', ' ', '+', ' ', '?'] j d → i ≤ j :=
  ⟨(ofText_accounts "" "a + ?").1, _, rfl, (ofText_accounts "" "a + ?").2.2 _ rfl⟩

end LambdaSyntax
