/-
  LambdaSyntax.Proofs.Digits — which numbers can be written, and what is written where all can be.

  A number is short when it has at most `Text.longest` digits. One that is read from an argument is
  (`integer?_short`), and so is one that fits a literal, so a tree that is read holds short
  numbers only (`isShort_of_readTokens`).

  A fold that fails at some literals, whatever it is to combine there, fails exactly on the trees that
  hold one (`foldM_guarded`). So where every number is short a tree has both its texts and its
  JSON text (`printed?_of_short`, `detail?_eq`, `json?_toRecord`), and an error that names a short limit has its
  message (`message?_of_short`). The short form does not show the number of a literal of sort
  `boolean`; for well-formed trees, where such a literal has none, it is to be had only if
  every number is short (`printed?_isSome_iff`). A type has no literals and always has one
  (`printed?_of_isType`).
-/

import LambdaSyntax.Proofs.Correctness
import LambdaSyntax.Proofs.Fold
import LambdaSyntax.Tree.WellFormed

namespace LambdaSyntax

/-! ## Numbers -/

namespace Text

variable {n : Int} {c : Char} {d k : Nat} {ds : List Nat} {cs : List Char}

theorem isShort_iff : isShort n = true ↔ n.natAbs < 10 ^ longest := by rw [isShort, decide_eq_true_eq, Nat.pow_eq]

theorem isShort_of_lt (h : n.natAbs < 10 ^ k) (hk : k ≤ longest) : isShort n = true :=
  isShort_iff.mpr (Nat.lt_of_lt_of_le h (Nat.pow_le_pow_right (by decide) hk))

/-- The least number that is too long. -/
theorem isShort_pow_longest : isShort (10 ^ longest : Nat) = false := by
  rw [Bool.eq_false_iff, Ne, isShort_iff, Int.natAbs_natCast]
  exact Nat.lt_irrefl _

theorem numeral?_of_short (h : isShort n = true) : numeral? n = some (toString n) := if_pos h

theorem digit?_lt (h : digit? c = some d) : d < 10 := by
  obtain ⟨z, hz, rfl⟩ := Option.map_eq_some_iff.mp h
  have hrange := List.find?_some hz
  simp only [Bool.and_eq_true, decide_eq_true_eq] at hrange
  omega

theorem digits?_lt {fresh : Bool} (h : digits? fresh cs = some ds) : ∀ d ∈ ds, d < 10 := by
  induction cs generalizing fresh ds with
  | nil =>
    cases fresh with
    | true => cases h
    | false =>
      cases h
      simp
  | cons c cs ih =>
    rw [digits?] at h
    split at h
    · cases fresh with
      | true => cases h
      | false => exact ih h
    · cases hd : digit? c with
      | none =>
        rw [hd] at h
        cases h
      | some d =>
        rw [hd] at h
        obtain ⟨es, hes, rfl⟩ := Option.map_eq_some_iff.mp h
        exact List.forall_mem_cons.mpr ⟨digit?_lt hd, ih hes⟩

theorem foldl_digits_lt (h : ∀ d ∈ ds, d < 10) (n : Nat) :
    ds.foldl (fun n d => 10 * n + d) n < (n + 1) * 10 ^ ds.length := by
  induction ds generalizing n with
  | nil => simp
  | cons d ds ih =>
    have hd := (List.forall_mem_cons.mp h).1
    have hstep : 10 * n + d + 1 ≤ (n + 1) * 10 := by omega
    calc (d :: ds).foldl (fun n d => 10 * n + d) n
      _ = ds.foldl (fun n d => 10 * n + d) (10 * n + d) := rfl
      _ < (10 * n + d + 1) * 10 ^ ds.length := ih (List.forall_mem_cons.mp h).2 _
      _ ≤ (n + 1) * 10 * 10 ^ ds.length := Nat.mul_le_mul_right _ hstep
      _ = (n + 1) * 10 ^ (d :: ds).length := by rw [List.length_cons, Nat.pow_succ', Nat.mul_assoc]

theorem ofDigits_lt (h : ∀ d ∈ ds, d < 10) : ofDigits ds < 10 ^ ds.length := by
  simpa [ofDigits] using foldl_digits_lt h 0

theorem natural?_short (h : natural? cs = some d) : isShort d = true := by
  unfold natural? at h
  split at h
  · rename_i ds hds
    split at h
    · rename_i hle
      cases h
      exact isShort_of_lt (ofDigits_lt (digits?_lt hds)) hle
    · cases h
  · cases h

theorem integer?_short {s : String} (h : integer? s = some n) : isShort n = true := by
  have hmap {f : Nat → Int} {cs : List Char} (hf : ∀ m, (f m).natAbs = m) (h : (natural? cs).map f = some n) :
      isShort n = true := by
    obtain ⟨m, hm, rfl⟩ := Option.map_eq_some_iff.mp h
    have hshort := natural?_short hm
    unfold isShort at hshort ⊢
    rwa [hf]
  unfold integer? at h
  split at h
  · exact hmap (fun m => Int.natAbs_neg m) h
  · exact hmap (fun m => rfl) h
  · exact hmap (fun m => rfl) h

end Text

/-! ## Literals -/

namespace Scalar

theorem text?_eq (v : Scalar) : v.text? = if v.isShort then some v.text else none := by cases v <;> rfl

end Scalar

namespace Tree

variable {σ τ β : Type} {t : Tree σ} {v : Scalar} {sort : String}

/-- Can the literal be written in the short form? -/
def showsShort (v : Scalar) (sort : String) : Bool := sort = "boolean" || v.isShort

theorem literalText?_eq (v : Scalar) (sort : String) :
    literalText? v sort = if showsShort v sort then some (literalText v sort) else none := by
  unfold literalText? showsShort
  by_cases hs : sort = "boolean"
  · simp [hs]
  · simp [hs, literalText, Scalar.text?_eq]

theorem everyLiteral_imp {ok ok' : Scalar → String → Bool} (h : ∀ v sort, ok v sort = true → ok' v sort = true)
    (ht : t.everyLiteral ok = true) : t.everyLiteral ok' = true := by
  induction t with
  | literal v sort => exact h v sort ht
  | var | int | bool => rfl
  | arith _ _ _ _ ihl ihr | compare _ _ _ _ ihl ihr | apply _ _ _ ihl ihr | arrow _ _ _ ihl ihr =>
    rw [everyLiteral, Bool.and_eq_true] at ht ⊢
    exact ⟨ihl ht.1, ihr ht.2⟩
  | cond _ _ _ _ iha ihb ihc | func _ _ _ _ _ iha ihb ihc =>
    rw [everyLiteral, Bool.and_eq_true, Bool.and_eq_true] at ht ⊢
    exact ⟨⟨iha ht.1.1, ihb ht.1.2⟩, ihc ht.2⟩

theorem everyLiteral_map (ok : Scalar → String → Bool) (f : σ → τ) (t : Tree σ) :
    (t.map f).everyLiteral ok = t.everyLiteral ok := by
  induction t with
  | literal | var | int | bool => rfl
  | arith _ _ _ _ ihl ihr | compare _ _ _ _ ihl ihr | apply _ _ _ ihl ihr | arrow _ _ _ ihl ihr =>
    simp only [map, everyLiteral, ihl, ihr]
  | cond _ _ _ _ iha ihb ihc | func _ _ _ _ _ iha ihb ihc => simp only [map, everyLiteral, iha, ihb, ihc]

/-- A type holds no literals. -/
theorem everyLiteral_of_isType (ok : Scalar → String → Bool) (h : t.isType = true) : t.everyLiteral ok = true := by
  induction t with
  | int | bool => rfl
  | arrow _ _ _ ihl ihr =>
    rw [isType, Bool.and_eq_true] at h
    rw [everyLiteral, ihl h.1, ihr h.2]
    rfl
  | _ => cases h

theorem showsShort_of_isLiteral (h : isLiteral v sort = true) : showsShort v sort = v.isShort := by
  cases v with
  | number n =>
    rw [isLiteral, Bool.and_eq_true, decide_eq_true_eq] at h
    simp [showsShort, h.1]
  | truth b => simp [showsShort, Scalar.isShort]

/-! ## Texts -/

theorem everyLiteral_children {ok : Scalar → String → Bool} (ht : ∀ v sort m, t ≠ literal v sort m) :
    t.everyLiteral ok = t.children.all (everyLiteral ok) := by
  cases t with
  | literal v sort m => exact absurd rfl (ht v sort m)
  | var | int | bool => rfl
  | arith | compare | apply | arrow => simp [everyLiteral, children]
  | cond | func => simp [everyLiteral, children, Bool.and_assoc]

theorem mapM_guarded {α : Type} {p : α → Bool} {f : α → β} {f? : α → Option β} {xs : List α}
    (h : ∀ x ∈ xs, f? x = if p x then some (f x) else none) :
    xs.mapM f? = if xs.all p then some (xs.map f) else none := by
  induction xs with
  | nil => rfl
  | cons x xs ih =>
    rw [List.mapM_cons, h x (by simp), ih fun y hy => h y (List.mem_cons_of_mem x hy), List.all_cons]
    cases p x <;> cases xs.all p <;> rfl

/-- A fold that fails at the literals that are not `ok` is the fold, if all literals are. -/
theorem foldM_guarded {ok : Scalar → String → Bool} {combine : Tree σ → List β → β}
    {combine? : Tree σ → List β → Option β}
    (hliteral : ∀ v sort m parts, combine? (literal v sort m) parts =
      if ok v sort then some (combine (literal v sort m) parts) else none)
    (hother : ∀ t parts, (∀ v sort m, t ≠ literal v sort m) → combine? t parts = some (combine t parts)) (t : Tree σ) :
    t.foldM combine? = if t.everyLiteral ok then some (t.fold combine) else none := by
  have hchildren (t : Tree σ) (ht : ∀ v sort m, t ≠ literal v sort m)
      (ih : ∀ u ∈ t.children, recFold combine? u = if u.everyLiteral ok then some (u.fold combine) else none) :
      recFold combine? t = if t.everyLiteral ok then some (t.fold combine) else none := by
    rw [recFold_eq, mapM_guarded ih, everyLiteral_children ht, fold_eq]
    cases t.children.all (everyLiteral ok) with
    | false => rfl
    | true => exact hother t _ ht
  rw [foldM_eq]
  induction t with
  | literal v sort m =>
    rw [recFold, hliteral, fold_eq]
    rfl
  | var | int | bool => exact hchildren _ (by simp) (by simp [children])
  | arith _ _ _ _ ihl ihr | compare _ _ _ _ ihl ihr | apply _ _ _ ihl ihr | arrow _ _ _ ihl ihr =>
    exact hchildren _ (by simp) (by simp [children, ihl, ihr])
  | cond _ _ _ _ iha ihb ihc | func _ _ _ _ _ iha ihb ihc =>
    exact hchildren _ (by simp) (by simp [children, iha, ihb, ihc])

theorem printed?_eq (t : Tree σ) : t.printed? = if t.everyLiteral showsShort then some t.printed else none := by
  refine foldM_guarded (fun v sort m parts => literalText?_eq v sort) (fun t parts ht => ?_) t
  cases t with
  | literal v sort m => exact absurd rfl (ht v sort m)
  | _ => rfl

theorem printed?_map (f : σ → τ) (t : Tree σ) : (t.map f).printed? = t.printed? := by
  rw [printed?_eq, printed?_eq, everyLiteral_map, printed_map]

/-- A tree has its full form exactly if every number is short. -/
theorem detail?_eq (t : Tree σ) : t.detail? = if t.isShort then some t.detail else none := by
  refine foldM_guarded (fun v sort m parts => ?_) (fun t parts ht => ?_) t
  · rw [detailNode?, Scalar.text?_eq]
    cases v.isShort <;> rfl
  · cases t with
    | literal v sort m => exact absurd rfl (ht v sort m)
    | _ => rfl

theorem printed?_literal (v : Scalar) (sort : String) (m : σ) : (literal v sort m).printed? = literalText? v sort := by
  rw [printed?, foldM_eq]
  rfl

theorem printed?_of_short (h : t.isShort = true) : t.printed? = some t.printed := by
  rw [printed?_eq, if_pos (everyLiteral_imp (fun v sort hv => ?_) h)]
  simp [showsShort, hv]

theorem printed?_of_isType (h : t.isType = true) : t.printed? = some t.printed :=
  printed?_of_short (everyLiteral_of_isType _ h)

/-- In a well-formed tree a literal of sort `boolean` has no number that could be too long. -/
theorem everyLiteral_showsShort (h : t.isExpression = true) : t.everyLiteral showsShort = t.isShort := by
  unfold isShort
  induction t with
  | literal v sort => exact showsShort_of_isLiteral h
  | var => rfl
  | int | bool | arrow => cases h
  | arith _ _ _ _ ihl ihr | compare _ _ _ _ ihl ihr | apply _ _ _ ihl ihr =>
    rw [isExpression, Bool.and_eq_true] at h
    rw [everyLiteral, everyLiteral, ihl h.1, ihr h.2]
  | cond _ _ _ _ iha ihb ihc =>
    rw [isExpression, Bool.and_eq_true, Bool.and_eq_true] at h
    rw [everyLiteral, everyLiteral, iha h.1.1, ihb h.1.2, ihc h.2]
  | func x p r b _ _ _ ihb =>
    rw [isExpression, Bool.and_eq_true, Bool.and_eq_true, Bool.and_eq_true] at h
    rw [everyLiteral, everyLiteral, ihb h.2]
    simp only [everyLiteral_of_isType _ h.1.1.2, everyLiteral_of_isType _ h.1.2]

theorem printed?_isSome_iff (h : t.isWellFormed = true) : t.printed?.isSome ↔ t.isShort = true := by
  rcases (Bool.or_eq_true _ _).mp h with he | hy
  · rw [printed?_eq, everyLiteral_showsShort he]
    cases t.isShort <;> simp
  · have hshort : t.isShort = true := everyLiteral_of_isType _ hy
    simp [printed?_of_isType hy, hshort]

theorem isShort_toRecord (t : Tree σ) : t.toRecord.isShort = t.isShort := by
  unfold isShort
  induction t with
  | literal | var | int | bool =>
    rw [toRecord, fold_eq]
    simp [recordNode, Record.isShort, everyLiteral]
  | arith _ _ _ _ ihl ihr | compare _ _ _ _ ihl ihr | apply _ _ _ ihl ihr | arrow _ _ _ ihl ihr =>
    rw [toRecord, fold_eq, everyLiteral, ← ihl, ← ihr]
    simp [children, recordNode, Record.isShort, toRecord]
  | cond _ _ _ _ iha ihb ihc | func _ _ _ _ _ iha ihb ihc =>
    rw [toRecord, fold_eq, everyLiteral, ← iha, ← ihb, ← ihc]
    simp [children, recordNode, Record.isShort, toRecord, Bool.and_assoc]

theorem json?_toRecord (h : t.isShort = true) : t.toRecord.json? = some t.toRecord.json := by
  rw [Record.json?, isShort_toRecord, if_pos h]

end Tree

/-! ## What is read -/

open LambdaSyntax.Tree Grammar

theorem isShort_of_derives {c : Tier} {n : Nat} {ts : List Token} {t : Tree Unit} (h : Derives c n ts t) :
    t.isShort = true := by
  unfold isShort
  induction h with
  | cond _ _ _ _ _ _ iha ihb ihc | func _ _ _ _ _ _ _ _ iha ihb ihc =>
    rw [everyLiteral, iha, ihb, ihc]
    rfl
  | compare _ _ _ ihl ihr | add _ _ _ ihl ihr | mul _ _ _ ihl ihr | apply _ _ ihl ihr | arrow _ _ _ ihl ihr =>
    rw [everyLiteral, ihl, ihr]
    rfl
  | comparison _ ih | sum _ ih | factor _ ih | application _ ih | term _ ih | atomicType _ ih => exact ih
  | group _ _ _ ih | typeGroup _ _ _ ih => exact ih
  | @integer n t v _ hv =>
    have hlt : (v : Int).natAbs < 10 ^ Literal.largestDigits := Nat.lt_of_le_of_lt hv.2.2 (by decide)
    rw [everyLiteral, Scalar.isShort]
    exact Text.isShort_of_lt hlt (by decide)
  | trueWord | falseWord | var | int | bool => rfl

theorem isShort_of_readTokens {g : Goal} {limit : Int} {ts : List Token} {t : Tree Span}
    (h : readTokens g limit ts = .ok t) : t.isShort = true := by
  have hshort := isShort_of_derives (derives_of_readTokens h)
  rwa [bare, isShort, everyLiteral_map] at hshort

theorem SyntaxError.message?_eq {e : SyntaxError} {text : String} (h : e.message? = some text) : text = e.message := by
  cases e with
  | tooDeep t p limit =>
    rw [message?, headline?, Text.numeral?] at h
    split at h
    · exact (Option.some.inj h).symm
    · cases h
  | _ => exact (Option.some.inj h).symm

/-- Only a limit of too many digits keeps an error from being told. -/
theorem SyntaxError.message?_of_short {e : SyntaxError}
    (h : ∀ t p limit, e = .tooDeep t p limit → Text.isShort limit = true) : e.message? = some e.message := by
  cases e with
  | tooDeep t p limit =>
    rw [message?, headline?, Text.numeral?_of_short (h t p limit rfl)]
    rfl
  | _ => rfl

end LambdaSyntax
