/-
  LambdaSyntax.Proofs.Spans — the tokens of a tree and the spans of its nodes.

  Apart from the parentheses the tokens that were read spell the signs of the tree, one sign a
  token (`readTokens_spans`). Each node has its own stretch of them, and its span runs from the
  first of that stretch to the last, also where it stands in parentheses.

  `Fits zs u` is the relation between the two: it follows the tree alone, without tiers, levels
  and parentheses, and composes spans the way productions do. Whatever is read fits
  (`Reads.fits`), and where a node fits, its children do at their places (`Fits.places`).
-/

import Mathlib.Data.List.Forall2
import LambdaSyntax.Proofs.Correctness
import LambdaSyntax.Tree.Signs

namespace LambdaSyntax

/-- What the token says is the sign. -/
inductive Token.Spells : Token → Sign → Prop
  | only {t : Token} {k : Kind} : t.kind = k → Spells t (.only k)
  | name {t : Token} : t.kind = .identifier → Spells t (.name t.lexeme)
  | number {t : Token} {n : Nat} :
      t.kind = .integer → Literal.IsNumber t.lexeme.toList n → Spells t (.value (.number n))
  | trueWord {t : Token} : t.kind = .kwTrue → Spells t (.value (.truth true))
  | falseWord {t : Token} : t.kind = .kwFalse → Spells t (.value (.truth false))

def isParen : Kind → Bool
  | .leftParen | .rightParen => true
  | _ => false

/-- The tokens before the end that are no parentheses. -/
def saying (ts : List Token) : List Token := (ts.takeWhile (·.kind ≠ .finish)).filter fun t => !isParen t.kind

namespace Grammar

theorem SumOp.kind_eq {k : Kind} {op : ArithOp} (h : SumOp k op) : k = op.kind := by cases h <;> rfl

theorem FactorOp.kind_eq {k : Kind} {op : ArithOp} (h : FactorOp k op) : k = op.kind := by cases h <;> rfl

theorem ComparisonOp.kind_eq {k : Kind} {op : CompareOp} (h : ComparisonOp k op) : k = op.kind := by cases h <;> rfl

end Grammar

theorem isParen_arith (op : ArithOp) : isParen op.kind = false := by cases op <;> rfl

theorem isParen_compare (op : CompareOp) : isParen op.kind = false := by cases op <;> rfl

namespace Parse

/-- The tokens spell the tree, and the spans are put together from theirs. -/
inductive Fits : List Token → Marked → Prop
  | var {t : Token} : t.kind = .identifier → Fits [t] (.var t.lexeme (.point t.loc))
  | literal {t : Token} {v : Scalar} {sort : String} :
      t.Spells (.value v) → Fits [t] (.literal v sort (.point t.loc))
  | arith {o : Token} {op : ArithOp} {ls rs : List Token} {l r : Marked} :
      Fits ls l → o.kind = op.kind → Fits rs r → Fits (ls ++ o :: rs) (.arith op l r (l.mark.cover r.mark))
  | compare {o : Token} {op : CompareOp} {ls rs : List Token} {l r : Marked} :
      Fits ls l → o.kind = op.kind → Fits rs r → Fits (ls ++ o :: rs) (.compare op l r (l.mark.cover r.mark))
  | apply {fs as : List Token} {f a : Marked} :
      Fits fs f → Fits as a → Fits (fs ++ as) (.apply f a (f.mark.cover a.mark))
  | cond {i th el : Token} {cs ys zs : List Token} {c y z : Marked} :
      i.kind = .kwIf → Fits cs c → th.kind = .kwThen → Fits ys y → el.kind = .kwElse → Fits zs z →
      Fits (i :: cs ++ th :: ys ++ el :: zs) (.cond c y z ⟨i.loc, z.mark.stop⟩)
  | func {fn x c₁ c₂ is : Token} {ps rs bs : List Token} {p r b : Marked} :
      fn.kind = .kwFun → x.kind = .identifier → c₁.kind = .colon → Fits ps p → c₂.kind = .colon → Fits rs r →
      is.kind = .kwIs → Fits bs b →
      Fits (fn :: x :: c₁ :: ps ++ c₂ :: rs ++ is :: bs) (.func x.lexeme p r b ⟨fn.loc, b.mark.stop⟩)
  | int {t : Token} : t.kind = .kwInt → Fits [t] (.int (.point t.loc))
  | bool {t : Token} : t.kind = .kwBool → Fits [t] (.bool (.point t.loc))
  | arrow {o : Token} {ps rs : List Token} {p r : Marked} :
      Fits ps p → o.kind = .arrow → Fits rs r → Fits (ps ++ o :: rs) (.arrow p r (p.mark.cover r.mark))

/-! ## What fits -/

variable {zs ws ts : List Token} {u v : Marked} {c : Tier} {n i j : Nat} {f : KindSet} {l : Location}

theorem Fits.spells (h : Fits zs u) : List.Forall₂ Token.Spells zs u.signs := by
  induction h with
  | var hk => exact .cons (.name hk) .nil
  | literal hv => exact .cons hv .nil
  | arith _ ho _ ihl ihr | compare _ ho _ ihl ihr | arrow _ ho _ ihl ihr =>
    exact List.rel_append ihl (.cons (.only ho) ihr)
  | apply _ _ ihf iha => exact List.rel_append ihf iha
  | cond hi _ hth _ hel _ ihc ihy ihz =>
    exact List.rel_append (List.rel_append (.cons (.only hi) ihc) (.cons (.only hth) ihy)) (.cons (.only hel) ihz)
  | func hfn hx h₁ _ h₂ _ his _ ihp ihr ihb =>
    have hhead := List.Forall₂.cons (.only hfn) (.cons (.name hx) (.cons (.only h₁) ihp))
    exact List.rel_append (List.rel_append hhead (.cons (.only h₂) ihr)) (.cons (.only his) ihb)
  | int hk | bool hk => exact .cons (.only hk) .nil

theorem first_append (h : zs.head?.map Token.loc = some l) (ws : List Token) :
    (zs ++ ws).head?.map Token.loc = some l := by
  rw [List.head?_append]
  cases hz : zs.head? with
  | none => simp [hz] at h
  | some t => simpa [hz] using h

theorem last_append (h : ws.getLast?.map Token.loc = some l) (zs : List Token) :
    (zs ++ ws).getLast?.map Token.loc = some l := by
  rw [List.getLast?_append]
  cases hw : ws.getLast? with
  | none => simp [hw] at h
  | some t => simpa [hw] using h

theorem Fits.first (h : Fits zs u) : zs.head?.map Token.loc = some u.mark.start := by
  induction h with
  | var | literal | int | bool | cond | func => rfl
  | arith _ _ _ ihl | compare _ _ _ ihl | arrow _ _ _ ihl | apply _ _ ihl => exact first_append ihl _

theorem last_cons (h : ws.getLast?.map Token.loc = some l) (t : Token) :
    (t :: ws).getLast?.map Token.loc = some l := last_append h [t]

theorem Fits.last (h : Fits zs u) : zs.getLast?.map Token.loc = some u.mark.stop := by
  induction h with
  | var | literal | int | bool => rfl
  | apply _ _ _ iha => exact last_append iha _
  | arith _ _ _ _ ihr | compare _ _ _ _ ihr | arrow _ _ _ _ ihr | cond _ _ _ _ _ _ _ _ ihr
  | func _ _ _ _ _ _ _ _ _ _ ihr => exact last_append (last_cons ihr _) _

theorem Fits.length_eq (h : Fits zs u) : zs.length = u.width := h.spells.length_eq

/-! ## Everything that is read fits -/

theorem Reads.fits (h : Reads c n ts u f) : Fits (ts.filter fun t => !isParen t.kind) u := by
  induction h with
  | cond hi _ hth _ hel _ ihc ihy ihz => simpa [hi, hth, hel, isParen] using Fits.cond hi ihc hth ihy hel ihz
  | func hfn hx h₁ _ h₂ _ his _ ihp ihr ihb =>
    simpa [hfn, hx, h₁, h₂, his, isParen] using Fits.func hfn hx h₁ ihp h₂ ihr his ihb
  | comparison _ ih | sum _ ih | factor _ ih | application _ ih | term _ ih | atomicType _ ih => exact ih
  | compare _ ho _ ihl ihr =>
    have hk := (compareOp?_eq_some.mp ho).kind_eq
    simpa [hk, isParen_compare] using Fits.compare ihl hk ihr
  | add _ ho _ ihl ihr =>
    have hk := (sumOp?_eq_some.mp ho).kind_eq
    simpa [hk, isParen_arith] using Fits.arith ihl hk ihr
  | mul _ ho _ ihl ihr =>
    have hk := (factorOp?_eq_some.mp ho).kind_eq
    simpa [hk, isParen_arith] using Fits.arith ihl hk ihr
  | apply _ _ ihf iha => simpa using Fits.apply ihf iha
  | integer hk hv => simpa [hk, isParen] using Fits.literal (.number hk hv)
  | trueWord hk => simpa [hk, isParen] using Fits.literal (.trueWord hk)
  | falseWord hk => simpa [hk, isParen] using Fits.literal (.falseWord hk)
  | var hk => simpa [hk, isParen] using Fits.var hk
  | group hl _ hr ih | typeGroup hl _ hr ih => simpa [hl, hr, isParen] using ih
  | arrow _ ho _ ihp ihr => simpa [ho, isParen] using Fits.arrow ihp ho ihr
  | int hk => simpa [hk, isParen] using Fits.int hk
  | bool hk => simpa [hk, isParen] using Fits.bool hk

/-! ## The nodes at their places -/

/-- Among the tokens stand at the index those that the node fits. -/
def Lies (zs : List Token) (p : Nat × Marked) : Prop :=
  ∃ before own after, zs = before ++ own ++ after ∧ before.length = p.1 ∧ Fits own p.2

theorem lies_inside {before own after ws : List Token} (hz : zs = before ++ ws ++ after) (hi : before.length = i)
    (as bs : List Token) (hw : ws = as ++ own ++ bs) (hv : Fits own v) (hj : j = i + as.length) :
    Lies zs (j, v) := by
  refine ⟨before ++ as, own, bs ++ after, ?_, ?_, hv⟩
  · rw [hz, hw]
    simp only [List.append_assoc]
  · rw [List.length_append, hi, hj]

theorem Lies.places (h : Lies zs (i, u)) : ∀ p ∈ u.places i, Lies zs p := by
  obtain ⟨before, own, after, hz, hi, hu⟩ := h
  have inside : ∀ {ws : List Token} {v : Marked} {j : Nat} (as bs : List Token), own = as ++ ws ++ bs → Fits ws v →
      j = i + as.length → Lies zs (j, v) := fun as bs hw hv hj => lies_inside hz hi as bs hw hv hj
  cases hu with
  | var | literal | int | bool => simp [Tree.places]
  | @arith o _ ls rs l r hl _ hr | @compare o _ ls rs l r hl _ hr | @arrow o ls rs l r hl _ hr =>
    have hleft : Lies zs (i, l) := inside [] (o :: rs) rfl hl rfl
    have hright : Lies zs (i + l.width + 1, r) :=
      inside (ls ++ [o]) [] (by simp) hr (by simp [hl.length_eq]; omega)
    simpa [Tree.places] using ⟨hleft, hright⟩
  | @apply fs as f a hf ha =>
    have hfun : Lies zs (i, f) := inside [] as rfl hf rfl
    have harg : Lies zs (i + f.width, a) := inside fs [] (by simp) ha (by simp [hf.length_eq])
    simpa [Tree.places] using ⟨hfun, harg⟩
  | @cond k th el cs ys ws c y z _ hc _ hy _ hw =>
    have hcond : Lies zs (i + 1, c) := inside [k] (th :: ys ++ el :: ws) (by simp) hc rfl
    have hyes : Lies zs (i + 1 + c.width + 1, y) :=
      inside (k :: cs ++ [th]) (el :: ws) (by simp) hy (by simp [hc.length_eq]; omega)
    have hno : Lies zs (i + 1 + c.width + 1 + y.width + 1, z) :=
      inside (k :: cs ++ th :: ys ++ [el]) [] (by simp) hw (by simp [hc.length_eq, hy.length_eq]; omega)
    simpa [Tree.places] using ⟨hcond, hyes, hno⟩
  | @func fn x c₁ c₂ is ps rs bs p r b _ _ _ hp _ hr _ hb =>
    have hdomain : Lies zs (i + 3, p) := inside [fn, x, c₁] (c₂ :: rs ++ is :: bs) (by simp) hp rfl
    have hcodomain : Lies zs (i + 3 + p.width + 1, r) :=
      inside (fn :: x :: c₁ :: ps ++ [c₂]) (is :: bs) (by simp) hr (by simp [hp.length_eq]; omega)
    have hbody : Lies zs (i + 3 + p.width + 1 + r.width + 1, b) :=
      inside (fn :: x :: c₁ :: ps ++ c₂ :: rs ++ [is]) [] (by simp) hb
        (by simp [hp.length_eq, hr.length_eq]; omega)
    simpa [Tree.places] using ⟨hdomain, hcodomain, hbody⟩

theorem Lies.parts (ps : List (Nat × Marked)) (h : ∀ p ∈ ps, Lies zs p) : ∀ p ∈ Tree.partsStack ps, Lies zs p := by
  induction ps using Tree.partsStack.induct with
  | case1 => simp [Tree.partsStack]
  | case2 i t ps ih =>
    rw [List.forall_mem_cons] at h
    rw [Tree.partsStack, List.forall_mem_cons]
    exact ⟨h.1, ih (List.forall_mem_append.mpr ⟨h.1.places, h.2⟩)⟩

end Parse

open Parse

/-- The tokens that a node has to itself when its signs begin at an index. -/
def stretch (zs : List Token) (i : Nat) (v : Tree Span) : List Token := (zs.drop i).take v.width

/-- The node's own tokens spell it, and its span runs from the first of them to the last. -/
structure Owns (zs : List Token) (i : Nat) (v : Tree Span) : Prop where
  spells : List.Forall₂ Token.Spells (stretch zs i v) v.signs
  first : (stretch zs i v).head?.map Token.loc = some v.mark.start
  last : (stretch zs i v).getLast?.map Token.loc = some v.mark.stop

theorem Parse.Lies.owns {zs : List Token} {i : Nat} {v : Tree Span} (h : Lies zs (i, v)) : Owns zs i v := by
  obtain ⟨before, own, after, rfl, rfl, hv⟩ := h
  have hown : stretch (before ++ own ++ after) before.length v = own := by
    rw [stretch, List.append_assoc, List.drop_left, ← hv.length_eq, List.take_left]
  constructor
  · rw [hown]
    exact hv.spells
  · rw [hown]
    exact hv.first
  · rw [hown]
    exact hv.last

/-- The tokens that are no parentheses spell the tree that is read, one sign a token. Every node
    of the tree has its own stretch of them, and its span is that of the stretch. -/
theorem readTokens_spans (g : Goal) (limit : Int) {ts : List Token} {u : Tree Span}
    (h : readTokens g limit ts = .ok u) : List.Forall₂ Token.Spells (saying ts) u.signs ∧
      u.parts.map Prod.snd = u.walk ∧ ∀ p ∈ u.parts, Owns (saying ts) p.1 p.2 := by
  have hfits : Fits (saying ts) u := by
    have hout := readTokens_outcome g limit ts
    rw [h] at hout
    cases hout with
    | read hb hr hk =>
      rw [saying, ← takeWhile_body, hb, takeWhile_passed hr.passable hk]
      exact hr.fits
  refine ⟨hfits.spells, Tree.map_partsStack _, ?_⟩
  intro p hp
  have hroot : Lies (saying ts) (0, u) := ⟨[], _, [], by simp, rfl, hfits⟩
  exact (Lies.parts [(0, u)] (by simpa using hroot) p hp).owns

theorem readTokens_spans_group : ∃ u, readTokens .expression 2 (Scan.ofText "" "(f) (1 + x)").tokens = .ok u ∧
    List.Forall₂ Token.Spells (saying (Scan.ofText "" "(f) (1 + x)").tokens) u.signs ∧
    u.parts.map Prod.snd = u.walk ∧ ∀ p ∈ u.parts, Owns (saying (Scan.ofText "" "(f) (1 + x)").tokens) p.1 p.2 :=
  ⟨_, rfl, readTokens_spans .expression 2 rfl⟩

end LambdaSyntax
