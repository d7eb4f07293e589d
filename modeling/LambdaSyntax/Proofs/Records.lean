/-
  LambdaSyntax.Proofs.Records — the record of a tree says all of it but its marks.

  A record is read by the names of its fields. `Record.Same` compares two of them so, whatever the
  order of their fields: under every name both have nothing, or the same text, or values that
  count the same, or records that are the same in turn. It is meant for records in which no name
  comes twice (`Record.NoRepeats`), and the records of trees are such.

  Equal fields in the same order are the same under every name (`Record.same_of_agrees`). Trees
  that match have records that agree field by field (`Matches.agrees`). And the names give
  everything back: the form is under `node`, and each form has a name for each of its fields
  (`matches_of_same`). So all these ways to compare two trees come to the same (`toRecord_faithful`).
-/

import LambdaSyntax.Proofs.Fold
import LambdaSyntax.Proofs.Keys
import LambdaSyntax.Tree.Record

namespace LambdaSyntax

namespace Record

variable {k : String} {r s : Record}

/-! ## Records by name -/

/-- What a field holds. -/
inductive Entry where
  | text (value : String)
  | scalar (value : Scalar)
  | sub (value : Record)

/-- What the first field of this name holds. -/
def get? (k : String) : Record → Option Entry
  | nil => none
  | text k' v rest => if k = k' then some (.text v) else get? k rest
  | scalar k' v rest => if k = k' then some (.scalar v) else get? k rest
  | sub k' v rest => if k = k' then some (.sub v) else get? k rest

inductive Entry.Same (R : Record → Record → Prop) : Option Entry → Option Entry → Prop
  | none : Same R none none
  | text {v : String} : Same R (some (.text v)) (some (.text v))
  | scalar {v w : Scalar} : v.toInt = w.toInt → Same R (some (.scalar v)) (some (.scalar w))
  | sub {r s : Record} : R r s → Same R (some (.sub r)) (some (.sub s))

/-- Under every name the records hold the same, or both of them nothing. -/
inductive Same : Record → Record → Prop
  | by_name {r s : Record} : (∀ k, Entry.Same Same (r.get? k) (s.get? k)) → Same r s

def names : Record → List String
  | nil => []
  | text k _ rest | scalar k _ rest | sub k _ rest => k :: names rest

/-- No name comes twice in the record, nor in those that it holds. -/
def NoRepeats : Record → Prop
  | nil => True
  | text k _ rest | scalar k _ rest => k ∉ rest.names ∧ NoRepeats rest
  | sub k v rest => k ∉ rest.names ∧ NoRepeats v ∧ NoRepeats rest

theorem Same.get? (h : Same r s) (k : String) : Entry.Same Same (r.get? k) (s.get? k) := by
  cases h with
  | by_name h => exact h k

section

variable {R : Record → Record → Prop}

@[simp] theorem same_text_iff {v w : String} : Entry.Same R (some (.text v)) (some (.text w)) ↔ v = w := by
  constructor
  · rintro ⟨⟩
    rfl
  · rintro rfl
    exact .text

@[simp] theorem same_scalar_iff {v w : Scalar} :
    Entry.Same R (some (.scalar v)) (some (.scalar w)) ↔ v.toInt = w.toInt :=
  ⟨fun h => by cases h with | scalar h => exact h, .scalar⟩

@[simp] theorem same_sub_iff : Entry.Same R (some (.sub r)) (some (.sub s)) ↔ R r s :=
  ⟨fun h => by cases h with | sub h => exact h, .sub⟩

end

theorem same_of_agrees (h : r.agrees s = true) : Same r s := by
  induction r generalizing s with
  | nil =>
    cases s with
    | nil => exact .by_name fun _ => .none
    | _ => cases h
  | text k v rest ih =>
    cases s with
    | text k' v' rest' =>
      simp only [agrees, Bool.and_eq_true, decide_eq_true_eq] at h
      obtain ⟨⟨rfl, rfl⟩, hrest⟩ := h
      refine .by_name fun i => ?_
      simp only [Record.get?]
      split
      · exact .text
      · exact (ih hrest).get? i
    | _ => cases h
  | scalar k v rest ih =>
    cases s with
    | scalar k' v' rest' =>
      simp only [agrees, Bool.and_eq_true, decide_eq_true_eq] at h
      obtain ⟨⟨rfl, hv⟩, hrest⟩ := h
      refine .by_name fun i => ?_
      simp only [Record.get?]
      split
      · exact .scalar hv
      · exact (ih hrest).get? i
    | _ => cases h
  | sub k v rest ihv ih =>
    cases s with
    | sub k' v' rest' =>
      simp only [agrees, Bool.and_eq_true, decide_eq_true_eq] at h
      obtain ⟨⟨rfl, hv⟩, hrest⟩ := h
      refine .by_name fun i => ?_
      simp only [Record.get?]
      split
      · exact .sub (ihv hv)
      · exact (ih hrest).get? i
    | _ => cases h

end Record

theorem ArithOp.symbol_inj {o o' : ArithOp} : o.symbol = o'.symbol ↔ o = o' := by
  cases o <;> cases o' <;> decide

theorem CompareOp.symbol_inj {o o' : CompareOp} : o.symbol = o'.symbol ↔ o = o' := by
  cases o <;> cases o' <;> decide

namespace Tree

variable {σ τ : Type} {t : Tree σ} {u : Tree τ}

/-! ## The record of a node -/

theorem toRecord_eq (t : Tree σ) : t.toRecord = recordNode t (t.children.map toRecord) := fold_eq recordNode t

section

variable (m : σ)

@[simp] theorem toRecord_var (x : String) : (var x m).toRecord = .text "node" "Var" (.text "name" x .nil) := toRecord_eq _

@[simp] theorem toRecord_literal (v : Scalar) (sort : String) :
    (literal v sort m).toRecord = .text "node" "Literal" (.text "type" sort (.scalar "value" v .nil)) :=
  toRecord_eq _

@[simp] theorem toRecord_arith (op : ArithOp) (l r : Tree σ) : (arith op l r m).toRecord =
    .text "node" "ArithBinOp" (.text "op" op.symbol (.sub "left" l.toRecord (.sub "right" r.toRecord .nil))) :=
  toRecord_eq _

@[simp] theorem toRecord_compare (op : CompareOp) (l r : Tree σ) : (compare op l r m).toRecord =
    .text "node" "CmpBinOp" (.text "op" op.symbol (.sub "left" l.toRecord (.sub "right" r.toRecord .nil))) :=
  toRecord_eq _

@[simp] theorem toRecord_apply (f a : Tree σ) : (apply f a m).toRecord =
    .text "node" "Application" (.sub "function" f.toRecord (.sub "argument" a.toRecord .nil)) :=
  toRecord_eq _

@[simp] theorem toRecord_cond (c y z : Tree σ) : (cond c y z m).toRecord =
    .text "node" "If" (.sub "condition" c.toRecord (.sub "then" y.toRecord (.sub "else" z.toRecord .nil))) :=
  toRecord_eq _

@[simp] theorem toRecord_func (x : String) (p r b : Tree σ) : (func x p r b m).toRecord =
    .text "node" "Fun" (.text "param_name" x (.sub "param_type" p.toRecord
      (.sub "return_type" r.toRecord (.sub "body" b.toRecord .nil)))) :=
  toRecord_eq _

@[simp] theorem toRecord_int : (int m).toRecord = .text "node" "Int" .nil := toRecord_eq _

@[simp] theorem toRecord_bool : (bool m).toRecord = .text "node" "Bool" .nil := toRecord_eq _

@[simp] theorem toRecord_arrow (p r : Tree σ) : (arrow p r m).toRecord =
    .text "node" "Arrow" (.sub "param" p.toRecord (.sub "result" r.toRecord .nil)) :=
  toRecord_eq _

end

/-- The form of a node is under a name that all nodes have. -/
theorem get?_node (t : Tree σ) : t.toRecord.get? "node" = some (.text t.form) := by
  rw [toRecord_eq]
  exact if_pos rfl

theorem form_of_same (h : Record.Same t.toRecord u.toRecord) : t.form = u.form := by
  have hnode := h.get? "node"
  rwa [get?_node, get?_node, Record.same_text_iff] at hnode

/-! ## Three comparisons -/

theorem Matches.agrees (h : Matches t u) : t.toRecord.agrees u.toRecord = true := by
  induction h with
  | var => simp [Record.agrees]
  | literal hv => simp [Record.agrees, hv]
  | arith _ _ ihl ihr => simp [Record.agrees, ihl, ihr]
  | compare _ _ ihl ihr => simp [Record.agrees, ihl, ihr]
  | apply _ _ ihf iha => simp [Record.agrees, ihf, iha]
  | cond _ _ _ iha ihb ihc => simp [Record.agrees, iha, ihb, ihc]
  | func _ _ _ ihp ihr ihb => simp [Record.agrees, ihp, ihr, ihb]
  | int => simp [Record.agrees]
  | bool => simp [Record.agrees]
  | arrow _ _ ihp ihr => simp [Record.agrees, ihp, ihr]

/-- The fields of a node give back the node. -/
theorem matches_of_same (h : Record.Same t.toRecord u.toRecord) : Matches t u := by
  induction t generalizing u with
  | var x m =>
    cases u with
    | var y n =>
      obtain rfl : x = y := by simpa [Record.get?] using h.get? "name"
      exact .var
    | _ => exact absurd (form_of_same h) (by simp [form])
  | literal v sort m =>
    cases u with
    | literal w sort' n =>
      obtain rfl : sort = sort' := by simpa [Record.get?] using h.get? "type"
      exact .literal (by simpa [Record.get?] using h.get? "value")
    | _ => exact absurd (form_of_same h) (by simp [form])
  | arith op l r m ihl ihr =>
    cases u with
    | arith op' l' r' n =>
      have hop : op.symbol = op'.symbol := by simpa [Record.get?] using h.get? "op"
      have hl : Record.Same l.toRecord l'.toRecord := by simpa [Record.get?] using h.get? "left"
      have hr : Record.Same r.toRecord r'.toRecord := by simpa [Record.get?] using h.get? "right"
      obtain rfl := ArithOp.symbol_inj.mp hop
      exact .arith (ihl hl) (ihr hr)
    | _ => exact absurd (form_of_same h) (by simp [form])
  | compare op l r m ihl ihr =>
    cases u with
    | compare op' l' r' n =>
      have hop : op.symbol = op'.symbol := by simpa [Record.get?] using h.get? "op"
      have hl : Record.Same l.toRecord l'.toRecord := by simpa [Record.get?] using h.get? "left"
      have hr : Record.Same r.toRecord r'.toRecord := by simpa [Record.get?] using h.get? "right"
      obtain rfl := CompareOp.symbol_inj.mp hop
      exact .compare (ihl hl) (ihr hr)
    | _ => exact absurd (form_of_same h) (by simp [form])
  | apply f a m ihf iha =>
    cases u with
    | apply f' a' n =>
      have hf : Record.Same f.toRecord f'.toRecord := by simpa [Record.get?] using h.get? "function"
      have ha : Record.Same a.toRecord a'.toRecord := by simpa [Record.get?] using h.get? "argument"
      exact .apply (ihf hf) (iha ha)
    | _ => exact absurd (form_of_same h) (by simp [form])
  | cond c y z m ihc ihy ihz =>
    cases u with
    | cond c' y' z' n =>
      have hc : Record.Same c.toRecord c'.toRecord := by simpa [Record.get?] using h.get? "condition"
      have hy : Record.Same y.toRecord y'.toRecord := by simpa [Record.get?] using h.get? "then"
      have hz : Record.Same z.toRecord z'.toRecord := by simpa [Record.get?] using h.get? "else"
      exact .cond (ihc hc) (ihy hy) (ihz hz)
    | _ => exact absurd (form_of_same h) (by simp [form])
  | func x p r b m ihp ihr ihb =>
    cases u with
    | func y p' r' b' n =>
      obtain rfl : x = y := by simpa [Record.get?] using h.get? "param_name"
      have hp : Record.Same p.toRecord p'.toRecord := by simpa [Record.get?] using h.get? "param_type"
      have hr : Record.Same r.toRecord r'.toRecord := by simpa [Record.get?] using h.get? "return_type"
      have hb : Record.Same b.toRecord b'.toRecord := by simpa [Record.get?] using h.get? "body"
      exact .func (ihp hp) (ihr hr) (ihb hb)
    | _ => exact absurd (form_of_same h) (by simp [form])
  | int m =>
    cases u with
    | int n => exact .int
    | _ => exact absurd (form_of_same h) (by simp [form])
  | bool m =>
    cases u with
    | bool n => exact .bool
    | _ => exact absurd (form_of_same h) (by simp [form])
  | arrow p r m ihp ihr =>
    cases u with
    | arrow p' r' n =>
      have hp : Record.Same p.toRecord p'.toRecord := by simpa [Record.get?] using h.get? "param"
      have hr : Record.Same r.toRecord r'.toRecord := by simpa [Record.get?] using h.get? "result"
      exact .arrow (ihp hp) (ihr hr)
    | _ => exact absurd (form_of_same h) (by simp [form])

theorem noRepeats_toRecord (t : Tree σ) : t.toRecord.NoRepeats := by
  induction t with
  | var => simp [Record.NoRepeats, Record.names]
  | literal => simp [Record.NoRepeats, Record.names]
  | arith _ _ _ _ ihl ihr => simp [Record.NoRepeats, Record.names, ihl, ihr]
  | compare _ _ _ _ ihl ihr => simp [Record.NoRepeats, Record.names, ihl, ihr]
  | apply _ _ _ ihf iha => simp [Record.NoRepeats, Record.names, ihf, iha]
  | cond _ _ _ _ ihc ihy ihz => simp [Record.NoRepeats, Record.names, ihc, ihy, ihz]
  | func _ _ _ _ _ ihp ihr ihb => simp [Record.NoRepeats, Record.names, ihp, ihr, ihb]
  | int => simp [Record.NoRepeats, Record.names]
  | bool => simp [Record.NoRepeats, Record.names]
  | arrow _ _ _ ihp ihr => simp [Record.NoRepeats, Record.names, ihp, ihr]

/-- The records of two trees are the same under every name exactly when the trees are the same, and exactly
    then they agree field by field. -/
theorem toRecord_faithful (t : Tree σ) (u : Tree τ) :
    t.toRecord.NoRepeats ∧ u.toRecord.NoRepeats ∧ (Record.Same t.toRecord u.toRecord ↔ t.same u = true) ∧
    t.toRecord.agrees u.toRecord = t.same u := by
  have hsame : t.same u = true ↔ Matches t u := same_iff.trans matches_iff.symm
  refine ⟨noRepeats_toRecord t, noRepeats_toRecord u, ?_, ?_⟩
  · exact ⟨fun h => hsame.mpr (matches_of_same h), fun h => Record.same_of_agrees (hsame.mp h).agrees⟩
  · rw [Bool.eq_iff_iff, hsame]
    exact ⟨fun h => matches_of_same (Record.same_of_agrees h), Matches.agrees⟩

end Tree

end LambdaSyntax
