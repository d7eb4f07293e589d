/-
  LambdaSyntax.Proofs.Printed — the short form tells trees apart.

  What is printed of a tree can be told from whatever stands behind it: a type from what is not
  an arrow (`type_chars_inj`), an expression from a blank and a closing parenthesis
  (`expression_chars_inj`). A single word is an expression without parts; of the others the
  first word behind the parenthesis gives the form away, except for applications, which have
  an expression there (`headOf?_chars`). No expression is printed like a type
  (`type_ne_expression`).

  So the short forms of two well-formed trees are one text exactly if the trees are the same. But
  a tree with a number of too many digits has none, and a truth value that is typed `integer`, which
  no well-formed tree holds, is printed otherwise than the number it counts as (`printed_untold`).
-/

import LambdaSyntax.Proofs.Digits
import LambdaSyntax.Proofs.Fold
import LambdaSyntax.Proofs.RoundTrip
import LambdaSyntax.Proofs.Same

namespace LambdaSyntax

namespace Tree

variable {σ τ : Type}

/-! ## The text node by node -/

theorem printed_eq (t : Tree σ) : t.printed = printedNode t (t.children.map printed) := fold_eq printedNode t

def chars (t : Tree σ) : List Char := t.printed.toList

section Chars

variable (x : String) (a b c : Tree σ) (m : σ)

@[simp] theorem chars_var : (var x m).chars = x.toList := by
  rw [chars, printed_eq]
  rfl

@[simp] theorem chars_literal (v : Scalar) (sort : String) : (literal v sort m).chars = (literalText v sort).toList := by
  rw [chars, printed_eq]
  rfl

@[simp] theorem chars_arith (op : ArithOp) :
    (arith op a b m).chars = '(' :: (op.symbol.toList ++ ' ' :: (a.chars ++ ' ' :: (b.chars ++ [')']))) := by
  rw [chars, printed_eq]
  simp [chars, children, printedNode, parens]

@[simp] theorem chars_compare (op : CompareOp) :
    (compare op a b m).chars = '(' :: (op.symbol.toList ++ ' ' :: (a.chars ++ ' ' :: (b.chars ++ [')']))) := by
  rw [chars, printed_eq]
  simp [chars, children, printedNode, parens]

@[simp] theorem chars_apply : (apply a b m).chars = '(' :: (a.chars ++ ' ' :: (b.chars ++ [')'])) := by
  rw [chars, printed_eq]
  simp [chars, children, printedNode, parens]

@[simp] theorem chars_cond : (cond a b c m).chars =
    '(' :: 'i' :: 'f' :: ' ' :: (a.chars ++ ' ' :: (b.chars ++ ' ' :: (c.chars ++ [')']))) := by
  rw [chars, printed_eq]
  simp [chars, children, printedNode, parens]

@[simp] theorem chars_func : (func x a b c m).chars =
    '(' :: 'λ' :: ' ' :: '(' :: (x.toList ++ ':' :: ' ' :: (a.chars ++ ')' :: ':' :: ' ' :: (b.chars ++ ' ' ::
      (c.chars ++ [')'])))) := by
  rw [chars, printed_eq]
  simp [chars, children, printedNode, parens]

@[simp] theorem chars_int : (int m).chars = ['i', 'n', 't'] := by
  rw [chars, printed_eq]
  simp [printedNode]

@[simp] theorem chars_bool : (bool m).chars = ['b', 'o', 'o', 'l'] := by
  rw [chars, printed_eq]
  simp [printedNode]

/-- An arrow to the left of an arrow stands in parentheses. -/
def atomChars (t : Tree σ) : List Char := if t.isArrow then '(' :: (t.chars ++ [')']) else t.chars

@[simp] theorem chars_arrow : (arrow a b m).chars = a.atomChars ++ ' ' :: '-' :: '>' :: ' ' :: b.chars := by
  rw [chars, printed_eq]
  by_cases ha : a.isArrow = true <;> simp [chars, atomChars, children, printedNode, parens, ha]

end Chars

end Tree

open LambdaSyntax.Tree

variable {σ τ : Type} {t : Tree σ} {u : Tree τ} {r s cs : List Char} {k : Kind}

/-! ## Types -/

/-- What stands behind a type is no arrow. -/
def NoArrow (rest : List Char) : Prop := ∀ cs, rest ≠ ' ' :: '-' :: cs

theorem chars_ne_arrow {p q : Tree τ} {m : τ} (ht : t.isType = true) (ha : t.isArrow = false) (hp : p.isType = true)
    (hr : NoArrow r) : t.chars ++ r ≠ (arrow p q m).chars ++ s := by
  intro h
  cases t with
  | int | bool =>
    cases p <;> simp [atomChars, isArrow, isType] at h hp
    exact absurd h (hr _)
  | arrow => cases ha
  | _ => cases ht

theorem atom_chars_inj (ht : t.isType = true) (hu : u.isType = true) (ha : t.isArrow = false) (hb : u.isArrow = false)
    (h : t.chars ++ r = u.chars ++ s) : t.plain = u.plain ∧ r = s := by
  cases t <;> cases u <;> simp [isArrow, isType] at h ht hu ha hb <;> exact ⟨rfl, h⟩

/-- With its parentheses a type is told from anything behind it. -/
theorem atomChars_inj (ht : t.isType = true) (hu : u.isType = true)
    (ih : ∀ {r s : List Char}, NoArrow r → NoArrow s → t.chars ++ r = u.chars ++ s → t.plain = u.plain ∧ r = s)
    (h : t.atomChars ++ r = u.atomChars ++ s) : t.plain = u.plain ∧ r = s := by
  by_cases ha : t.isArrow = true
  · by_cases hb : u.isArrow = true
    · simp only [atomChars, if_pos ha, if_pos hb, List.cons_append, List.append_assoc, List.cons.injEq, true_and] at h
      have hi := ih (r := ')' :: r) (s := ')' :: s) (by simp [NoArrow]) (by simp [NoArrow]) h
      exact ⟨hi.1, by simpa using hi.2⟩
    · rw [atomChars, atomChars, if_pos ha, if_neg hb] at h
      cases u <;> simp [isArrow, isType] at h hu hb
  · by_cases hb : u.isArrow = true
    · rw [atomChars, atomChars, if_neg ha, if_pos hb] at h
      cases t <;> simp [isArrow, isType] at h ht ha
    · rw [atomChars, atomChars, if_neg ha, if_neg hb] at h
      exact atom_chars_inj ht hu (by simpa using ha) (by simpa using hb) h

theorem type_chars_inj (ht : t.isType = true) (hu : u.isType = true) (hr : NoArrow r) (hs : NoArrow s)
    (h : t.chars ++ r = u.chars ++ s) : t.plain = u.plain ∧ r = s := by
  induction t generalizing u r s with
  | int | bool =>
    cases u with
    | int | bool => exact atom_chars_inj ht hu rfl rfl h
    | arrow p q =>
      rw [isType, Bool.and_eq_true] at hu
      exact absurd h (chars_ne_arrow ht rfl hu.1 hr)
    | _ => cases hu
  | arrow p q _ ihp ihq =>
    rw [isType, Bool.and_eq_true] at ht
    cases u with
    | int | bool => exact absurd h.symm (chars_ne_arrow hu rfl ht.1 hs)
    | arrow p' q' =>
      rw [isType, Bool.and_eq_true] at hu
      simp only [chars_arrow, List.append_assoc, List.cons_append] at h
      obtain ⟨hp, hrest⟩ := atomChars_inj ht.1 hu.1 (ihp ht.1 hu.1) h
      obtain ⟨hq, hrs⟩ := ihq ht.2 hu.2 hr hs (by simpa using hrest)
      exact ⟨by rw [plain, plain, hp, hq], hrs⟩
    | _ => cases hu
  | _ => cases ht

/-! ## Words and groups -/

/-- What stands behind an expression: nothing, a blank, or the end of a group. -/
def Ends (rest : List Char) : Prop := ∀ c ∈ rest.head?, c = ' ' ∨ c = ')'

theorem ends_nil : Ends [] := by simp [Ends]

theorem ends_blank : Ends (' ' :: cs) := by simp [Ends]

theorem ends_paren : Ends (')' :: cs) := by simp [Ends]

theorem Ends.not_wordChar (h : Ends r) : ∀ c ∈ r.head?, isWordChar c = false := by
  intro c hc
  rcases h c hc with rfl | rfl <;> decide

/-- The kinds of the words that are expressions. -/
def wordKinds : List Kind := [.identifier, .integer, .kwTrue, .kwFalse]

/-- The kinds of the words that are types. -/
def typeKinds : List Kind := [.kwInt, .kwBool]

theorem wordChars_of_class (h : classOf? cs = some k) (hk : k ∈ wordKinds ++ typeKinds) :
    ∀ c ∈ cs, isWordChar c = true := by
  have hop : ∀ k ∈ wordKinds ++ typeKinds, k ∉ Kind.operators := by decide
  rcases classOf?_cases h with ⟨hd, -⟩ | ⟨hw, -⟩ | ho
  · exact fun c hc => isWordChar_of_digit (digits_of_isDigits hd c hc)
  · exact wordChars_of_isWord hw
  · exact absurd (spelled?_eq_some ho).1 (hop k hk)

/-- An expression without parts is printed as a word. -/
theorem leaf_class (ht : t.isExpression = true) (hc : t.children = []) :
    ∃ k ∈ wordKinds, classOf? t.chars = some k := by
  cases t with
  | var x =>
    rw [chars_var]
    exact ⟨.identifier, by decide, classOf?_eq_identifier.mpr ht⟩
  | literal v sort =>
    rw [chars_literal]
    obtain ⟨k, hk, hclass⟩ := classOf?_literal ht
    exact ⟨k, List.mem_cons_of_mem _ hk, hclass⟩
  | int | bool | arrow => cases ht
  | _ => cases hc

theorem group_chars (ht : t.isExpression = true) (hc : t.children ≠ []) : ∃ cs, t.chars = '(' :: cs := by
  cases t with
  | arith => exact ⟨_, chars_arith ..⟩
  | compare => exact ⟨_, chars_compare ..⟩
  | apply => exact ⟨_, chars_apply ..⟩
  | cond => exact ⟨_, chars_cond ..⟩
  | func => exact ⟨_, chars_func ..⟩
  | int | bool | arrow => cases ht
  | var | literal => exact absurd rfl hc

theorem word_head {w : List Char} (hk : k ∈ wordKinds) (hw : classOf? w = some k) :
    ∀ c ∈ (w ++ r).head?, isWordChar c = true := by
  have hchars := wordChars_of_class hw (List.mem_append_left _ hk)
  cases w with
  | nil => cases hw
  | cons c w =>
    intro d hd
    obtain rfl := Option.some.inj hd
    exact hchars c (by simp)

theorem not_group_of_leaf (ht : t.isExpression = true) (hc : t.children = []) : t.chars ++ r ≠ '(' :: cs := by
  intro h
  obtain ⟨k, hk, hw⟩ := leaf_class ht hc
  have hp := word_head (r := r) hk hw '(' (by simp [h])
  exact absurd hp (by decide)

/-- A word ends at the first character that is not part of words. -/
theorem word_eq {v w : List Char} (hv : ∀ c ∈ v, isWordChar c = true) (hw : ∀ c ∈ w, isWordChar c = true)
    (hr : ∀ c ∈ r.head?, isWordChar c = false) (hs : ∀ c ∈ s.head?, isWordChar c = false) (h : v ++ r = w ++ s) :
    v = w ∧ r = s := by
  have heq : v = w := by rw [← takeWhile_stop hv hr, h, takeWhile_stop hw hs]
  subst heq
  exact ⟨rfl, List.append_cancel_left h⟩

theorem name_eq {x y : String} (hx : isName x = true) (hy : isName y = true)
    (h : x.toList ++ ':' :: r = y.toList ++ ':' :: s) : x = y ∧ r = s := by
  have hcolon : ∀ {cs : List Char}, ∀ c ∈ (':' :: cs).head?, isWordChar c = false := by
    intro cs c hc
    obtain rfl := Option.some.inj hc
    decide
  have hv := wordChars_of_class (classOf?_eq_identifier.mpr hx) (by decide)
  have hw := wordChars_of_class (classOf?_eq_identifier.mpr hy) (by decide)
  obtain ⟨hxy, hrest⟩ := word_eq hv hw hcolon hcolon h
  exact ⟨String.toList_inj.mp hxy, (List.cons.inj hrest).2⟩

/-- The expression that a word is. -/
def leafOf (cs : List Char) : Tree Unit :=
  match classOf? cs with
  | some .integer => literal (.number (Nat.ofDigitChars 10 cs 0)) "integer" ()
  | some .kwTrue => literal (.number 1) "boolean" ()
  | some .kwFalse => literal (.number 0) "boolean" ()
  | _ => var (String.ofList cs) ()

theorem leafOf_chars (ht : t.isExpression = true) (hc : t.children = []) : leafOf t.chars = t.plain := by
  cases t with
  | var x =>
    rw [chars_var, leafOf, classOf?_eq_identifier.mpr ht]
    simp [plain]
  | literal v sort =>
    rw [chars_literal]
    rcases isLiteral_cases ht with ⟨n, rfl, rfl⟩ | ⟨b, rfl, rfl⟩
    · show leafOf (Scalar.number n).text.toList = _
      rw [leafOf, classOf?_number, toList_number, Nat.ofDigitChars_ten_toDigits]
      rfl
    · cases b <;> rfl
  | int | bool | arrow => cases ht
  | _ => cases hc

/-! ## The first word of a group -/

/-- What opens a group, applications and left arrows apart. -/
inductive Head where
  | arith (op : ArithOp)
  | compare (op : CompareOp)
  | cond
  | func
  deriving DecidableEq

namespace Head

def word : Head → List Char
  | arith op => op.symbol.toList
  | compare op => op.symbol.toList
  | cond => ['i', 'f']
  | func => ['λ']

def all : List Head :=
  [arith .add, arith .sub, arith .mul, arith .div, compare .less, compare .equal, compare .greater, cond, func]

def ofWord? (w : List Char) : Option Head := all.find? (·.word = w)

theorem mem_all (o : Head) : o ∈ all := by
  rcases o with op | op | _ | _
  · cases op <;> decide
  · cases op <;> decide
  · decide
  · decide

theorem ofWord?_word (o : Head) : ofWord? o.word = some o := by
  have hall : ∀ o ∈ all, ofWord? o.word = some o := by decide
  exact hall o o.mem_all

theorem ofWord?_eq_none {w : List Char} (h : ∀ o ∈ all, o.word ≠ w) : ofWord? w = none := by
  simpa [ofWord?] using h

end Head

/-- What opens the group that the text starts with. -/
def headOf? : List Char → Option Head
  | '(' :: cs => Head.ofWord? (cs.takeWhile (· ≠ ' '))
  | _ => none

theorem headOf?_word (o : Head) : headOf? ('(' :: (o.word ++ ' ' :: cs)) = some o := by
  have hblank : ∀ o ∈ Head.all, o.word.all (· ≠ ' ') = true := by decide
  rw [headOf?, takeWhile_stop (List.all_eq_true.mp (hblank o o.mem_all)) (by simp), o.ofWord?_word]

theorem headOf?_group : headOf? ('(' :: '(' :: cs) = none := by
  have hparen : ∀ o ∈ Head.all, o.word.head? ≠ some '(' := by decide
  refine Head.ofWord?_eq_none ?_
  intro o ho h
  exact hparen o ho (by simp [h])

theorem headOf?_leaf {w : List Char} (hk : k ∈ wordKinds ++ typeKinds) (hw : classOf? w = some k) :
    headOf? ('(' :: (w ++ ' ' :: cs)) = none := by
  have hclass : ∀ o ∈ Head.all, ∀ k ∈ wordKinds ++ typeKinds, classOf? o.word ≠ some k := by decide
  have hblank : ∀ c ∈ w, decide (c ≠ ' ') = true := by
    intro c hc
    have hb := not_blank_of_class hw c hc
    rw [decide_eq_true_eq]
    intro hc'
    rw [hc'] at hb
    cases hb
  rw [headOf?, takeWhile_stop hblank (by simp)]
  refine Head.ofWord?_eq_none ?_
  intro o ho h
  exact hclass o ho k hk (by rw [h, hw])

def Tree.head? : Tree σ → Option Head
  | arith op .. => some (.arith op)
  | compare op .. => some (.compare op)
  | cond .. => some .cond
  | func .. => some .func
  | _ => none

/-- The first word of a group tells the form of an expression; applications have none. -/
theorem headOf?_chars (ht : t.isExpression = true) : headOf? (t.chars ++ r) = t.head? := by
  cases t with
  | int | bool | arrow => cases ht
  | arith op =>
    simp only [chars_arith, List.cons_append, List.append_assoc]
    exact headOf?_word (.arith op)
  | compare op =>
    simp only [chars_compare, List.cons_append, List.append_assoc]
    exact headOf?_word (.compare op)
  | cond =>
    rw [chars_cond]
    exact headOf?_word .cond
  | func =>
    rw [chars_func]
    exact headOf?_word .func
  | apply f a =>
    rw [isExpression, Bool.and_eq_true] at ht
    simp only [chars_apply, List.cons_append, List.append_assoc]
    by_cases hc : f.children = []
    · obtain ⟨k, hk, hw⟩ := leaf_class ht.1 hc
      exact headOf?_leaf (List.mem_append_left _ hk) hw
    · obtain ⟨cs, hcs⟩ := group_chars ht.1 hc
      rw [hcs]
      exact headOf?_group
  | var | literal =>
    unfold headOf?
    split
    · rename_i h
      exact absurd h (not_group_of_leaf ht rfl)
    · rfl

/-! ## Expressions -/

/-- The text of the tree is told from what stands behind it. -/
def CharsInj (τ : Type) (t : Tree σ) : Prop := ∀ (u : Tree τ) (r s : List Char), u.isExpression = true → Ends r → Ends s →
  t.chars ++ r = u.chars ++ s → t.plain = u.plain ∧ r = s

theorem charsInj_leaf (ht : t.isExpression = true) (hc : t.children = []) : CharsInj τ t := by
  intro u r s hu hr hs h
  by_cases huc : u.children = []
  · obtain ⟨k, hk, hw⟩ := leaf_class ht hc
    obtain ⟨l, hl, hv⟩ := leaf_class hu huc
    have hws := wordChars_of_class hw (List.mem_append_left _ hk)
    have hvs := wordChars_of_class hv (List.mem_append_left _ hl)
    obtain ⟨heq, hrest⟩ := word_eq hws hvs hr.not_wordChar hs.not_wordChar h
    exact ⟨by rw [← leafOf_chars ht hc, ← leafOf_chars hu huc, heq], hrest⟩
  · obtain ⟨cs, hcs⟩ := group_chars hu huc
    rw [hcs] at h
    exact absurd h (not_group_of_leaf ht hc)

theorem CharsInj.pair {a b : Tree σ} {a' b' : Tree τ} (ha : CharsInj τ a) (hb : CharsInj τ b) (ha' : a'.isExpression = true)
    (hb' : b'.isExpression = true) (h : a.chars ++ ' ' :: (b.chars ++ ')' :: r) = a'.chars ++ ' ' :: (b'.chars ++ ')' :: s)) :
    a.plain = a'.plain ∧ b.plain = b'.plain ∧ r = s := by
  obtain ⟨hfirst, h⟩ := ha _ _ _ ha' ends_blank ends_blank h
  obtain ⟨hsecond, h⟩ := hb _ _ _ hb' ends_paren ends_paren (List.cons.inj h).2
  exact ⟨hfirst, hsecond, (List.cons.inj h).2⟩

theorem head?_eq (ht : t.isExpression = true) (hu : u.isExpression = true) (h : t.chars ++ r = u.chars ++ s) :
    t.head? = u.head? := by
  rw [← headOf?_chars ht, h, headOf?_chars hu]

/-- No body of a function goes on the type in front of it. -/
theorem noArrow_body (ht : t.isExpression = true) : NoArrow (' ' :: (t.chars ++ r)) := by
  intro cs h
  replace h := (List.cons.inj h).2
  by_cases hc : t.children = []
  · obtain ⟨k, hk, hw⟩ := leaf_class ht hc
    have hminus := word_head (r := r) hk hw '-' (by simp [h])
    exact absurd hminus (by decide)
  · obtain ⟨us, hus⟩ := group_chars ht hc
    simp [hus] at h

/-- An expression is told from what stands behind it. -/
theorem expression_chars_inj (ht : t.isExpression = true) : CharsInj τ t := by
  -- the texts open alike, so both trees have one form, and their parts are told one after another
  induction t with
  | var | literal => exact charsInj_leaf ht rfl
  | int | bool | arrow => cases ht
  | arith op a b _ iha ihb =>
    intro u r s hu hr hs h
    have hhead := head?_eq ht hu h
    rw [isExpression, Bool.and_eq_true] at ht
    cases u with
    | arith op' =>
      rw [isExpression, Bool.and_eq_true] at hu
      obtain rfl : op = op' := by simpa [head?] using hhead
      simp only [chars_arith, List.cons_append, List.append_assoc, List.cons.injEq, true_and,
        List.append_cancel_left_eq] at h
      obtain ⟨ha, hb, hrs⟩ := (iha ht.1).pair (ihb ht.2) hu.1 hu.2 h
      exact ⟨by rw [plain, plain, ha, hb], hrs⟩
    | _ => cases hhead
  | compare op a b _ iha ihb =>
    intro u r s hu hr hs h
    have hhead := head?_eq ht hu h
    rw [isExpression, Bool.and_eq_true] at ht
    cases u with
    | compare op' =>
      rw [isExpression, Bool.and_eq_true] at hu
      obtain rfl : op = op' := by simpa [head?] using hhead
      simp only [chars_compare, List.cons_append, List.append_assoc, List.cons.injEq, true_and,
        List.append_cancel_left_eq] at h
      obtain ⟨ha, hb, hrs⟩ := (iha ht.1).pair (ihb ht.2) hu.1 hu.2 h
      exact ⟨by rw [plain, plain, ha, hb], hrs⟩
    | _ => cases hhead
  | apply f a m ihf iha =>
    intro u r s hu hr hs h
    have hhead := head?_eq ht hu h
    rw [isExpression, Bool.and_eq_true] at ht
    cases u with
    | apply f' a' =>
      rw [isExpression, Bool.and_eq_true] at hu
      simp only [chars_apply, List.cons_append, List.append_assoc, List.cons.injEq, true_and] at h
      obtain ⟨hf, ha, hrs⟩ := (ihf ht.1).pair (iha ht.2) hu.1 hu.2 h
      exact ⟨by rw [plain, plain, hf, ha], hrs⟩
    | var | literal =>
      rw [chars_apply] at h
      exact absurd h.symm (not_group_of_leaf hu rfl)
    | int | bool | arrow => cases hu
    | _ => cases hhead
  | cond a b c _ iha ihb ihc =>
    intro u r s hu hr hs h
    have hhead := head?_eq ht hu h
    rw [isExpression, Bool.and_eq_true, Bool.and_eq_true] at ht
    cases u with
    | cond =>
      rw [isExpression, Bool.and_eq_true, Bool.and_eq_true] at hu
      simp only [chars_cond, List.cons_append, List.append_assoc, List.cons.injEq, true_and] at h
      obtain ⟨ha, hbc⟩ := iha ht.1.1 _ _ _ hu.1.1 ends_blank ends_blank h
      obtain ⟨hb, hc, hrs⟩ := (ihb ht.1.2).pair (ihc ht.2) hu.1.2 hu.2 (List.cons.inj hbc).2
      exact ⟨by rw [plain, plain, ha, hb, hc], hrs⟩
    | _ => cases hhead
  | func x p q b _ _ _ ihb =>
    intro u r s hu hr hs h
    have hhead := head?_eq ht hu h
    rw [isExpression, Bool.and_eq_true, Bool.and_eq_true, Bool.and_eq_true] at ht
    cases u with
    | func x' p' q' b' =>
      rw [isExpression, Bool.and_eq_true, Bool.and_eq_true, Bool.and_eq_true] at hu
      simp only [chars_func, List.cons_append, List.append_assoc, List.cons.injEq, true_and] at h
      obtain ⟨hx, hpqb⟩ := name_eq ht.1.1.1 hu.1.1.1 h
      obtain ⟨hp, hqb⟩ := type_chars_inj ht.1.1.2 hu.1.1.2 (by simp [NoArrow]) (by simp [NoArrow]) (List.cons.inj hpqb).2
      simp only [List.cons.injEq, true_and] at hqb
      obtain ⟨hq, hb'⟩ := type_chars_inj ht.1.2 hu.1.2 (noArrow_body ht.2) (noArrow_body hu.2) hqb
      obtain ⟨hb, hrs⟩ := ihb ht.2 _ _ _ hu.2 ends_paren ends_paren (List.cons.inj hb').2
      exact ⟨by rw [plain, plain, hx, hp, hq, hb], (List.cons.inj hrs).2⟩
    | _ => cases hhead

/-! ## Types and expressions -/

theorem type_class (ht : t.isType = true) (ha : t.isArrow = false) : ∃ k ∈ typeKinds, classOf? t.chars = some k := by
  cases t with
  | int => exact ⟨.kwInt, by decide, by rw [chars_int]; decide⟩
  | bool => exact ⟨.kwBool, by decide, by rw [chars_bool]; decide⟩
  | arrow => cases ha
  | _ => cases ht

/-- Nor has a type that stands in parentheses a first word that opens a group. -/
theorem headOf?_type (ht : t.isType = true) (ha : t.isArrow = true) : headOf? ('(' :: (t.chars ++ r)) = none := by
  cases t with
  | arrow p q =>
    rw [isType, Bool.and_eq_true] at ht
    simp only [chars_arrow, atomChars, List.append_assoc, List.cons_append]
    by_cases hp : p.isArrow = true
    · rw [if_pos hp]
      exact headOf?_group
    · rw [if_neg hp]
      rw [Bool.not_eq_true] at hp
      obtain ⟨k, hk, hw⟩ := type_class ht.1 hp
      exact headOf?_leaf (List.mem_append_right _ hk) hw
  | _ => cases ha

theorem atom_ne_expression (ht : t.isType = true) (ha : t.isArrow = false) (hu : u.isExpression = true) (hr : Ends r)
    (hs : Ends s) : t.chars ++ r ≠ u.chars ++ s := by
  intro h
  obtain ⟨k, hk, hw⟩ := type_class ht ha
  by_cases hc : u.children = []
  · have hdisjoint : ∀ k ∈ wordKinds, k ∉ typeKinds := by decide
    obtain ⟨l, hl, hv⟩ := leaf_class hu hc
    have hws := wordChars_of_class hw (List.mem_append_right _ hk)
    have hvs := wordChars_of_class hv (List.mem_append_left _ hl)
    obtain ⟨heq, -⟩ := word_eq hws hvs hr.not_wordChar hs.not_wordChar h
    rw [heq, hv, Option.some.injEq] at hw
    subst hw
    exact hdisjoint l hl hk
  · obtain ⟨cs, hcs⟩ := group_chars hu hc
    cases t <;> simp [hcs, isType, isArrow] at h ht ha

theorem type_ne_expression (ht : t.isType = true) (hu : u.isExpression = true) (hr : Ends r) (hs : Ends s) :
    t.chars ++ r ≠ u.chars ++ s := by
  induction t generalizing u r s with
  | int | bool => exact atom_ne_expression ht rfl hu hr hs
  | arrow p q _ ihp =>
    rw [isType, Bool.and_eq_true] at ht
    intro h
    simp only [chars_arrow, atomChars, List.append_assoc, List.cons_append] at h
    by_cases hp : p.isArrow = true
    · rw [if_pos hp, List.cons_append, List.append_assoc, List.cons_append] at h
      -- a group whose first word opens nothing is an application, of what would be the type again
      have hhead : u.head? = none := by rw [← headOf?_chars hu, ← h, headOf?_type ht.1 hp]
      cases u with
      | apply f a =>
        rw [isExpression, Bool.and_eq_true] at hu
        simp only [chars_apply, List.cons_append, List.append_assoc, List.cons.injEq, true_and] at h
        exact ihp ht.1 hu.1 ends_paren ends_blank h
      | var | literal => exact not_group_of_leaf hu rfl h.symm
      | int | bool | arrow => cases hu
      | _ => cases hhead
    · rw [if_neg hp] at h
      exact ihp ht.1 hu ends_blank hs h
  | _ => cases ht

/-! ## Whole texts -/

theorem literalText_plain {v : Scalar} {sort : String} (h : isLiteral v sort = true) :
    literalText (.number v.toInt) sort = literalText v sort := by
  rcases isLiteral_cases h with ⟨n, rfl, rfl⟩ | ⟨b, rfl, rfl⟩
  · rfl
  · cases b <;> rfl

theorem isArrow_plain (t : Tree σ) : t.plain.isArrow = t.isArrow := by cases t <;> rfl

theorem chars_plain_type (ht : t.isType = true) : t.plain.chars = t.chars := by
  induction t with
  | int | bool => simp [plain]
  | arrow p q _ ihp ihq =>
    rw [isType, Bool.and_eq_true] at ht
    simp only [plain, chars_arrow, atomChars, isArrow_plain, ihp ht.1, ihq ht.2]
  | _ => cases ht

theorem chars_plain_expression (ht : t.isExpression = true) : t.plain.chars = t.chars := by
  induction t with
  | var => simp [plain]
  | literal v sort => simp only [plain, chars_literal, literalText_plain ht]
  | arith _ _ _ _ iha ihb =>
    rw [isExpression, Bool.and_eq_true] at ht
    simp only [plain, chars_arith, iha ht.1, ihb ht.2]
  | compare _ _ _ _ iha ihb =>
    rw [isExpression, Bool.and_eq_true] at ht
    simp only [plain, chars_compare, iha ht.1, ihb ht.2]
  | apply _ _ _ iha ihb =>
    rw [isExpression, Bool.and_eq_true] at ht
    simp only [plain, chars_apply, iha ht.1, ihb ht.2]
  | cond _ _ _ _ iha ihb ihc =>
    rw [isExpression, Bool.and_eq_true, Bool.and_eq_true] at ht
    simp only [plain, chars_cond, iha ht.1.1, ihb ht.1.2, ihc ht.2]
  | func _ _ _ _ _ _ _ ihb =>
    rw [isExpression, Bool.and_eq_true, Bool.and_eq_true, Bool.and_eq_true] at ht
    simp only [plain, chars_func, chars_plain_type ht.1.1.2, chars_plain_type ht.1.2, ihb ht.2]
  | _ => cases ht

theorem isWellFormed_cases (h : t.isWellFormed = true) : t.isExpression = true ∨ t.isType = true :=
  (Bool.or_eq_true _ _).mp h

theorem chars_plain (ht : t.isWellFormed = true) : t.plain.chars = t.chars := by
  rcases isWellFormed_cases ht with he | hy
  · exact chars_plain_expression he
  · exact chars_plain_type hy

theorem plain_of_chars (ht : t.isWellFormed = true) (hu : u.isWellFormed = true) (h : t.chars = u.chars) :
    t.plain = u.plain := by
  have harrow : NoArrow [] := by simp [NoArrow]
  have h' : t.chars ++ [] = u.chars ++ [] := by rw [h]
  rcases isWellFormed_cases ht with hte | htt <;> rcases isWellFormed_cases hu with hue | hut
  · exact (expression_chars_inj hte _ _ _ hue ends_nil ends_nil h').1
  · exact absurd h'.symm (type_ne_expression hut hte ends_nil ends_nil)
  · exact absurd h' (type_ne_expression htt hue ends_nil ends_nil)
  · exact (type_chars_inj htt hut harrow harrow h').1

theorem same_iff_chars (ht : t.isWellFormed = true) (hu : u.isWellFormed = true) :
    t.chars = u.chars ↔ t.same u = true := by
  rw [same_iff]
  constructor
  · exact plain_of_chars ht hu
  · intro h
    rw [← chars_plain ht, h, chars_plain hu]

/-- Both trees have a short form, and it is one text exactly if the trees are the same. -/
def ToldByForm (t : Tree σ) (u : Tree τ) : Prop :=
  ∃ v w, t.printed? = some v ∧ u.printed? = some w ∧ (v = w ↔ t.same u = true)

theorem toldByForm (ht : t.isWellFormed = true) (hu : u.isWellFormed = true) (htshort : t.isShort = true)
    (hushort : u.isShort = true) : ToldByForm t u := by
  refine ⟨t.printed, u.printed, printed?_of_short htshort, printed?_of_short hushort, ?_⟩
  rw [← String.toList_inj]
  exact same_iff_chars ht hu

theorem isShort_of_readText {g : Goal} {limit : Int} {file source : String} {t : Tree Span}
    (h : readText g limit file source = .ok t) : t.isShort = true := by
  obtain ⟨ts, -, hread⟩ := readText_ok.mp h
  exact isShort_of_readTokens hread

/-- A well-formed tree has a short form exactly if its numbers are short, and that is the short form of no
    other tree; trees that are read have one. -/
theorem printed_eq_iff_same :
    (∀ {σ : Type} (t : Tree σ), t.isWellFormed = true → (t.printed?.isSome ↔ t.isShort = true)) ∧
    (∀ {σ τ : Type} (t : Tree σ) (u : Tree τ), t.isWellFormed = true → u.isWellFormed = true →
      t.isShort = true → u.isShort = true → ToldByForm t u) ∧
    ∀ g g' limit limit' file file' source source' t u, readText g limit file source = .ok t →
      readText g' limit' file' source' = .ok u → ToldByForm t u := by
  refine ⟨fun t => printed?_isSome_iff, fun t u => toldByForm, ?_⟩
  intro g g' limit limit' file file' source source' t u ht hu
  exact toldByForm (isWellFormed_of_readText ht) (isWellFormed_of_readText hu) (isShort_of_readText ht)
    (isShort_of_readText hu)

theorem printed_eq_iff_same_arrows :
    (Tree.arrow (.arrow (.int ()) (.bool ()) ()) (.int ()) ()).printed?.isSome ∧
    ToldByForm (Tree.arrow (.arrow (.int ()) (.bool ()) ()) (.int ()) ())
      (Tree.arrow (.int ()) (.arrow (.bool ()) (.int ()) ()) ()) ∧
    ∃ t u, readText .expression 2 "" "f x + 1" = .ok t ∧ readText .expression 2 "" "(f x) + 01" = .ok u ∧
      ToldByForm t u :=
  ⟨(printed_eq_iff_same.1 _ (by decide)).mpr (by decide),
    printed_eq_iff_same.2.1 _ _ (by decide) (by decide) (by decide) (by decide),
    _, _, rfl, rfl, printed_eq_iff_same.2.2 .expression .expression 2 2 "" "" "f x + 1" "(f x) + 01" _ _ rfl rfl⟩

/-- The least number that is too long has no text, though it is the same as itself; and a truth value is the same
    as the number it counts as, but not printed so. -/
theorem printed_untold :
    (∃ t : Tree Unit, t = literal (.number (10 ^ Text.longest : Nat)) "integer" () ∧ t.isWellFormed = true ∧
      t.same t = true ∧ ¬∃ text, t.printed? = some text) ∧
    (literal (.truth true) "integer" ()).same (literal (.number 1) "integer" ()) = true ∧
    (literal (.truth true) "integer" ()).printed? = some "True" ∧
    (literal (.number 1) "integer" ()).printed? = some "1" := by
  have hwell (n : Nat) : (literal (.number n) "integer" ()).isWellFormed = true := by
    simp [isWellFormed, isExpression, isLiteral]
  have hlong : (literal (.number (10 ^ Text.longest : Nat)) "integer" ()).isShort = false := by
    rw [isShort, everyLiteral, Scalar.isShort, Text.isShort_pow_longest]
  have hshort : Text.isShort 1 = true := Text.isShort_of_lt (show _ < 10 ^ 1 by decide) (by decide)
  have hself (t : Tree Unit) : t.same t = true := same_iff.mpr rfl
  refine ⟨⟨_, rfl, hwell _, hself _, ?_⟩, same_iff.mpr rfl, printed?_literal .., ?_⟩
  · rw [← Option.isSome_iff_exists, printed?_isSome_iff (hwell _), hlong]
    decide
  · rw [printed?_literal, literalText?, if_neg (by decide), Scalar.text?, Text.numeral?_of_short hshort]
    rfl

end LambdaSyntax
