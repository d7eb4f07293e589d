/-
  LambdaSyntax.Proofs.Detail — the full form of a tree holds all there is to it but the marks.

  The full form puts the texts of fields behind one another, and a text that is a field can
  have commas, parentheses and the names of other fields in it. So the statement that an induction on
  the tree can carry is about a text with something behind it: being one text
  `Reveals` what the two stand for wherever a comma or a closing parenthesis follows. Numbers, truth values
  and operators have neither in them (`reveals_of_free`), quoted texts end themselves
  (`reveals_quoted`), and fields of the same names are told one after the other
  (`RevealsFields`). Different constructors differ before the opening parenthesis.

  So the full form is one for two trees exactly if they are one but for the marks
  (`detail_determines`).
-/

import LambdaSyntax.Proofs.Fold
import LambdaSyntax.Proofs.Quoted
import LambdaSyntax.Proofs.Same
import LambdaSyntax.Proofs.Words
import LambdaSyntax.Tree.Printed

namespace LambdaSyntax

/-! ## Scalars and operators -/

namespace Scalar

def ofText : List Char → Scalar
  | 'T' :: _ => truth true
  | 'F' :: _ => truth false
  | '-' :: cs => number (-(Nat.ofDigitChars 10 cs 0))
  | cs => number (Nat.ofDigitChars 10 cs 0)

theorem ofText_digits {cs : List Char} (h : Literal.isDigits cs = true) :
    ofText cs = number (Nat.ofDigitChars 10 cs 0) := by
  unfold ofText
  split
  any_goals simp [Literal.isDigits] at h
  rfl

theorem toList_negative (m : Nat) : (number (.negSucc m)).text.toList = '-' :: Nat.toDigits 10 (m + 1) := by
  show ("-" ++ (m + 1).repr).toList = _
  rw [String.toList_append, Nat.toList_repr]
  rfl

theorem ofText_text (v : Scalar) : ofText v.text.toList = v := by
  cases v with
  | number n =>
    cases n with
    | ofNat m =>
      show ofText (number m).text.toList = number m
      rw [ofText_digits (isDigits_number m), toList_number, Nat.ofDigitChars_ten_toDigits]
    | negSucc m =>
      rw [toList_negative, ofText, Nat.ofDigitChars_ten_toDigits]
      rfl
  | truth b => cases b <;> rfl

theorem text_inj {v w : Scalar} (h : v.text = w.text) : v = w := by
  rw [← ofText_text v, h, ofText_text]

end Scalar

theorem ArithOp.detail_inj {a b : ArithOp} (h : a.detail = b.detail) : a = b := by
  cases a <;> cases b <;> first | rfl | exact absurd h (by decide)

theorem CompareOp.detail_inj {a b : CompareOp} (h : a.detail = b.detail) : a = b := by
  cases a <;> cases b <;> first | rfl | exact absurd h (by decide)

namespace Tree

variable {v w : String} {P Q : Prop} {r s cs ds : List Char} {c d : Char}

/-! ## Texts with something behind them -/

/-- The character can stand inside a field that is not quoted. -/
def isFree (c : Char) : Bool := c != ',' && c != ')'

/-- What stands behind a field. -/
def Stopped (cs : List Char) : Prop := ∃ c rest, cs = c :: rest ∧ isFree c = false

/-- Wherever the two texts end a field, `P` can be read off their being the same. -/
def Reveals (v w : String) (P : Prop) : Prop :=
  ∀ ⦃r s⦄, Stopped r → Stopped s → v.toList ++ r = w.toList ++ s → P ∧ r = s

theorem Reveals.imp (h : Reveals v w P) (hPQ : P → Q) : Reveals v w Q := fun _ _ hr hs heq => (h hr hs heq).imp_left hPQ

/-- What stands before the first of certain characters is told from the rest. -/
theorem before_inj {p : Char → Bool} (hcs : ∀ c ∈ cs, p c = true) (hds : ∀ c ∈ ds, p c = true)
    (hr : ∀ c ∈ r.head?, p c = false) (hs : ∀ c ∈ s.head?, p c = false) (h : cs ++ r = ds ++ s) : cs = ds ∧ r = s := by
  have hfront := congrArg (List.takeWhile p) h
  rw [takeWhile_stop hcs hr, takeWhile_stop hds hs] at hfront
  subst hfront
  exact ⟨rfl, List.append_cancel_left h⟩

theorem Stopped.not_free (h : Stopped r) : ∀ c ∈ r.head?, isFree c = false := by
  obtain ⟨c, rest, rfl, hc⟩ := h
  intro d hd
  exact Option.some.inj hd ▸ hc

theorem stopped_comma (r : List Char) : Stopped (',' :: r) := ⟨_, _, rfl, rfl⟩

theorem stopped_paren (r : List Char) : Stopped (')' :: r) := ⟨_, _, rfl, rfl⟩

theorem reveals_of_free (hv : ∀ c ∈ v.toList, isFree c = true) (hw : ∀ c ∈ w.toList, isFree c = true) :
    Reveals v w (v = w) := by
  intro r s hr hs h
  exact (before_inj hv hw hr.not_free hs.not_free h).imp_left String.toList_inj.mp

theorem reveals_quoted (x y : String) : Reveals (Text.quoted x) (Text.quoted y) (x = y) := by
  intro r s _ _ h
  rw [Text.quoted, Text.quoted, String.toList_ofList, String.toList_ofList] at h
  exact (Text.quotedChars_inj h).imp_left String.toList_inj.mp

theorem free_of_digit (h : c.isDigit = true) : isFree c = true := by
  rw [isDigit_iff_toNat] at h
  have hne (d : Char) (hd : d.toNat < 48) : c ≠ d := by
    rintro rfl
    omega
  simp [isFree, hne ',' (by decide), hne ')' (by decide)]

theorem free_text (v : Scalar) : ∀ c ∈ v.text.toList, isFree c = true := by
  have hdigits (n : Nat) : ∀ c ∈ Nat.toDigits 10 n, isFree c = true := fun c hc =>
    free_of_digit (Nat.isDigit_of_mem_toDigits (by decide) (by decide) hc)
  cases v with
  | number n =>
    cases n with
    | ofNat m => exact (toList_number m).symm ▸ hdigits m
    | negSucc m =>
      rw [Scalar.toList_negative, List.forall_mem_cons]
      exact ⟨rfl, hdigits _⟩
  | truth b => cases b <;> exact List.all_eq_true.mp (by decide)

theorem reveals_scalar (v w : Scalar) : Reveals v.text w.text (v = w) :=
  (reveals_of_free (free_text v) (free_text w)).imp Scalar.text_inj

theorem reveals_arith (a b : ArithOp) : Reveals a.detail b.detail (a = b) := by
  have hfree (op : ArithOp) : ∀ c ∈ op.detail.toList, isFree c = true := by
    cases op <;> exact List.all_eq_true.mp (by decide)
  exact (reveals_of_free (hfree a) (hfree b)).imp ArithOp.detail_inj

theorem reveals_compare (a b : CompareOp) : Reveals a.detail b.detail (a = b) := by
  have hfree (op : CompareOp) : ∀ c ∈ op.detail.toList, isFree c = true := by
    cases op <;> exact List.all_eq_true.mp (by decide)
  exact (reveals_of_free (hfree a) (hfree b)).imp CompareOp.detail_inj

/-! ## Constructors with their fields -/

/-- Fields of the same names, told apart one after the other. -/
inductive RevealsFields : List (String × String) → List (String × String) → Prop → Prop
  | nil : RevealsFields [] [] True
  | cons {x y : String} {A B : Prop} {fs gs : List (String × String)} (name : String) :
      Reveals x y A → RevealsFields fs gs B → RevealsFields ((name, x) :: fs) ((name, y) :: gs) (A ∧ B)

/-- The texts of the fields with the parenthesis that closes them. -/
def fieldsChars : List (String × String) → List Char
  | [] => [')']
  | [f] => f.1.toList ++ '=' :: f.2.toList ++ [')']
  | f :: fs => f.1.toList ++ '=' :: f.2.toList ++ ',' :: ' ' :: fieldsChars fs

theorem toList_written (name : String) (fs : List (String × String)) :
    (written name fs).toList = name.toList ++ '(' :: fieldsChars fs := by
  have hfields : (String.intercalate ", " (fs.map fun f => f.1 ++ "=" ++ f.2)).toList ++ [')'] = fieldsChars fs := by
    rw [String.toList_intercalate]
    induction fs with
    | nil => rfl
    | cons f fs ih =>
      cases fs with
      | nil => simp [fieldsChars]
      | cons g fs =>
        rw [List.map_cons, List.map_cons, List.map_cons, List.map_cons, List.intercalate_cons_cons, fieldsChars, ← ih]
        · simp
        · simp
  simp [written, parens, ← hfields]

theorem RevealsFields.reveals {fs gs : List (String × String)} (h : RevealsFields fs gs P)
    (heq : fieldsChars fs ++ r = fieldsChars gs ++ s) : P ∧ r = s := by
  induction h with
  | nil => exact ⟨trivial, (List.cons.inj heq).2⟩
  | cons name hxy hrest ih =>
    cases hrest with
    | nil =>
      simp only [fieldsChars, List.append_assoc, List.cons_append, List.nil_append] at heq
      obtain ⟨hA, hbehind⟩ := hxy (stopped_paren r) (stopped_paren s) (List.cons.inj (List.append_cancel_left heq)).2
      exact ⟨⟨hA, trivial⟩, (List.cons.inj hbehind).2⟩
    | cons =>
      simp only [fieldsChars, List.append_assoc, List.cons_append] at heq ih
      obtain ⟨hA, hbehind⟩ := hxy (stopped_comma _) (stopped_comma _) (List.cons.inj (List.append_cancel_left heq)).2
      obtain ⟨hB, hrs⟩ := ih (List.cons.inj (List.cons.inj hbehind).2).2
      exact ⟨⟨hA, hB⟩, hrs⟩

theorem reveals_written {fs gs : List (String × String)} (name : String) (h : RevealsFields fs gs P) :
    Reveals (written name fs) (written name gs) P := by
  intro r s _ _ heq
  rw [toList_written, toList_written, List.append_assoc, List.append_assoc] at heq
  exact h.reveals (List.cons.inj (List.append_cancel_left heq)).2

/-! ## Trees -/

variable {σ τ : Type}

def fieldsOf (t : Tree σ) : List (String × String) :=
  match t with
  | var x _ => [("name", Text.quoted x)]
  | literal v sort _ => [("value", v.text), ("literal_type", Text.quoted sort)]
  | arith op l r _ => [("op", op.detail), ("left", l.detail), ("right", r.detail)]
  | compare op l r _ => [("op", op.detail), ("left", l.detail), ("right", r.detail)]
  | apply f a _ => [("function", f.detail), ("argument", a.detail)]
  | cond c a b _ => [("condition", c.detail), ("then_branch", a.detail), ("else_branch", b.detail)]
  | func x p r b _ =>
    [("param_name", Text.quoted x), ("param_type", p.detail), ("return_type", r.detail), ("body", b.detail)]
  | int _ | bool _ => []
  | arrow p r _ => [("param", p.detail), ("result", r.detail)]

theorem detail_eq (t : Tree σ) : t.detail = written t.constructor t.fieldsOf := by
  rw [detail, fold_eq]
  cases t <;> rfl

/-- Two trees of different constructors differ before their fields begin. -/
theorem reveals_of_constructor {t : Tree σ} {u : Tree τ} (h : t.constructor ≠ u.constructor) :
    Reveals t.detail u.detail P := by
  have hname {ρ : Type} (t : Tree ρ) : ∀ c ∈ t.constructor.toList, (c != '(') = true := by
    cases t <;> simp [constructor, form]
  intro r s _ _ heq
  rw [detail_eq, detail_eq, toList_written, toList_written, List.append_assoc, List.append_assoc] at heq
  have hfront := (before_inj (hname t) (hname u) (by simp) (by simp) heq).1
  exact absurd (String.toList_inj.mp hfront) h

/-- Of two trees of one constructor it is enough to tell the fields. -/
theorem reveals_of_fields {t : Tree σ} {u : Tree τ} (hname : t.constructor = u.constructor)
    (h : RevealsFields t.fieldsOf u.fieldsOf P) (hbare : P → t.bare = u.bare) :
    Reveals t.detail u.detail (t.bare = u.bare) := by
  rw [detail_eq, detail_eq, hname]
  exact (reveals_written _ h).imp hbare

/-- The full form of a tree, wherever it ends a field, is told from every other tree's. -/
theorem reveals_detail (t : Tree σ) (u : Tree τ) : Reveals t.detail u.detail (t.bare = u.bare) := by
  -- the induction is on the first tree, for all second ones; only a second one of its form has its fields
  induction t generalizing u with
  | var x =>
    cases u with
    | var y => exact reveals_of_fields rfl (.cons _ (reveals_quoted x y) .nil) (by simp [bare, map])
    | _ => exact reveals_of_constructor (by simp [constructor, form])
  | literal v sort =>
    cases u with
    | literal w sort' =>
      exact reveals_of_fields rfl (.cons _ (reveals_scalar v w) (.cons _ (reveals_quoted sort sort') .nil))
        (by simp [bare, map])
    | _ => exact reveals_of_constructor (by simp [constructor, form])
  | arith op l r _ ihl ihr =>
    cases u with
    | arith op' l' r' =>
      exact reveals_of_fields rfl (.cons _ (reveals_arith op op') (.cons _ (ihl l') (.cons _ (ihr r') .nil)))
        (by simp +contextual [bare, map])
    | _ => exact reveals_of_constructor (by simp [constructor, form])
  | compare op l r _ ihl ihr =>
    cases u with
    | compare op' l' r' =>
      exact reveals_of_fields rfl (.cons _ (reveals_compare op op') (.cons _ (ihl l') (.cons _ (ihr r') .nil)))
        (by simp +contextual [bare, map])
    | _ => exact reveals_of_constructor (by simp [constructor, form])
  | apply f a _ ihf iha =>
    cases u with
    | apply f' a' =>
      exact reveals_of_fields rfl (.cons _ (ihf f') (.cons _ (iha a') .nil)) (by simp +contextual [bare, map])
    | _ => exact reveals_of_constructor (by simp [constructor, form])
  | cond c a b _ ihc iha ihb =>
    cases u with
    | cond c' a' b' =>
      exact reveals_of_fields rfl (.cons _ (ihc c') (.cons _ (iha a') (.cons _ (ihb b') .nil)))
        (by simp +contextual [bare, map])
    | _ => exact reveals_of_constructor (by simp [constructor, form])
  | func x p r b _ ihp ihr ihb =>
    cases u with
    | func y p' r' b' =>
      exact reveals_of_fields rfl
        (.cons _ (reveals_quoted x y) (.cons _ (ihp p') (.cons _ (ihr r') (.cons _ (ihb b') .nil))))
        (by simp +contextual [bare, map])
    | _ => exact reveals_of_constructor (by simp [constructor, form])
  | int =>
    cases u with
    | int => exact reveals_of_fields rfl .nil fun _ => rfl
    | _ => exact reveals_of_constructor (by simp [constructor, form])
  | bool =>
    cases u with
    | bool => exact reveals_of_fields rfl .nil fun _ => rfl
    | _ => exact reveals_of_constructor (by simp [constructor, form])
  | arrow p r _ ihp ihr =>
    cases u with
    | arrow p' r' =>
      exact reveals_of_fields rfl (.cons _ (ihp p') (.cons _ (ihr r') .nil)) (by simp +contextual [bare, map])
    | _ => exact reveals_of_constructor (by simp [constructor, form])

/-- The full forms of two trees are one text exactly if the trees are one but for the marks, and then the
    trees are the same. -/
theorem detail_determines (t : Tree σ) (u : Tree τ) :
    (t.detail = u.detail ↔ t.bare = u.bare) ∧ (t.detail = u.detail → t.same u = true) := by
  have hbare (h : t.detail = u.detail) : t.bare = u.bare :=
    (reveals_detail t u (stopped_paren []) (stopped_paren []) (by rw [h])).1
  refine ⟨⟨hbare, fun h => ?_⟩, fun h => same_of_bare (hbare h)⟩
  calc t.detail
    _ = t.bare.detail := (detail_map _ t).symm
    _ = u.bare.detail := by rw [h]
    _ = u.detail := detail_map _ u

theorem detail_determines_quotes :
    (var "it's\", name='x')" 0).detail = (var "it's\", name='x')" ()).detail ∧
      (var "it's\", name='x')" 0).same (var "it's\", name='x')" ()) = true := by
  have h := detail_determines (var "it's\", name='x')" 0) (var "it's\", name='x')" ())
  exact ⟨h.1.mpr rfl, h.2 (h.1.mpr rfl)⟩

end Tree

end LambdaSyntax
