/-
  LambdaSyntax.Proofs.Layout — where the tokens stand does not matter for what is read.

  Of a token only its kind and its lexeme are looked at. Two tokens that have these in common are
  `Like` each other, whatever their values and places. A production that is run on two rows of
  such tokens does the same on both: it ends in states that are alike, with trees that differ
  in nothing but their marks or with errors that say the same (`Tied`). This holds of the
  steps, of what is put together from them (`Twin.bind`) and so of every tier, by induction on
  the levels.

  So whole readings agree (`readTokens_layout`), and two texts with the same lexemes are read
  alike, however these are laid out and whatever the texts are called.
-/

import Mathlib.Data.List.Forall2
import LambdaSyntax.Parse.Reading
import LambdaSyntax.Proofs.Literal
import LambdaSyntax.Proofs.Same

namespace LambdaSyntax

/-! ## Tokens and errors that are alike -/

/-- The tokens differ in their values and places at most. -/
structure Token.Like (t u : Token) : Prop where
  kind : t.kind = u.kind
  lexeme : t.lexeme = u.lexeme

/-- The errors have one cause, index and set of expected kinds, and tokens that are alike. -/
inductive SyntaxError.Like : SyntaxError → SyntaxError → Prop
  | unexpected {ks : KindSet} {t u : Token} {i : Int} : t.Like u → Like (.unexpected ks t i) (.unexpected ks u i)
  | unexpectedEnd {ks : KindSet} {t u : Token} {i : Int} :
      t.Like u → Like (.unexpectedEnd ks t i) (.unexpectedEnd ks u i)
  | overflow {t u : Token} {i : Int} : t.Like u → Like (.overflow t i) (.overflow u i)
  | invalidLiteral {t u : Token} {i : Int} {reason : String} :
      t.Like u → Like (.invalidLiteral t i reason) (.invalidLiteral u i reason)
  | tooDeep {t u : Token} {i limit : Int} : t.Like u → Like (.tooDeep t i limit) (.tooDeep u i limit)

theorem Hint.missing_like {ks : KindSet} {t u : Token} (h : t.Like u) :
    Hint.missing ks (some t) = Hint.missing ks (some u) := by
  simp only [Hint.missing, Option.map_some, Hint.misspelled, h.kind, h.lexeme]

theorem Hint.unexpected_like {t u : Token} (h : t.Like u) : Hint.unexpected t = Hint.unexpected u := by
  simp only [Hint.unexpected, h.kind, h.lexeme]

theorem SyntaxError.naming_like {t u : Token} (h : t.Like u) : SyntaxError.naming t = SyntaxError.naming u := by
  simp only [SyntaxError.naming, h.kind, h.lexeme]

/-- The errors say the same, wherever they are noticed. -/
structure SyntaxError.SaysSame (d e : SyntaxError) : Prop where
  like : d.Like e
  code : d.code = e.code
  position : d.position = e.position
  expected : d.expected = e.expected
  headline : d.headline = e.headline
  help : d.help = e.help
  suggestions : d.suggestions = e.suggestions

theorem SyntaxError.Like.saysSame {d e : SyntaxError} (h : d.Like e) : d.SaysSame e := by
  refine ⟨h, ?_, ?_, ?_, ?_, ?_, ?_⟩
  · cases h <;> rfl
  · cases h <;> rfl
  · cases h <;> rfl
  · unfold headline
    cases h with
    | unexpected h => simp only [naming_like h]
    | overflow h | invalidLiteral h => simp only [h.lexeme]
    | _ => rfl
  · cases h <;> rfl
  · unfold suggestions
    cases h with
    | unexpected h => simp only [Hint.missing_like h, Hint.unexpected_like h]
    | unexpectedEnd h => simp only [Hint.missing_like h]
    | _ => rfl

/-! ## Literals -/

/-- The outcomes are one value or errors that are alike. -/
def Literal.Same {α : Type} : Except SyntaxError α → Except SyntaxError α → Prop
  | .ok a, .ok b => a = b
  | .error d, .error e => d.Like e
  | _, _ => False

theorem Literal.integer_like {t u : Token} (h : t.Like u) (i : Int) :
    Literal.Same (Literal.integer t i) (Literal.integer u i) := by
  simp only [Literal.integer, h.lexeme]
  split
  · exact .invalidLiteral h
  split
  · exact .overflow h
  split
  · exact .overflow h
  · rfl

theorem Literal.boolean_like {t u : Token} (h : t.Like u) (i : Int) :
    Literal.Same (Literal.boolean t i) (Literal.boolean u i) := by
  simp only [Literal.boolean, h.kind]
  split
  · rfl
  · rfl
  · exact .invalidLiteral h

namespace Parse

/-! ## Two runs side by side -/

/-- The settings have one limit, and what stands at the end is alike. -/
structure Setting.Like (S T : Setting) : Prop where
  closing : S.closing.Like T.closing
  limit : S.limit = T.limit

structure State.Like (s t : State) : Prop where
  index : s.index = t.index
  rest : List.Forall₂ Token.Like s.rest t.rest
  follow : s.follow = t.follow

inductive Tied {α β : Type} (R : α → β → Prop) :
    EStateM.Result SyntaxError State α → EStateM.Result SyntaxError State β → Prop
  | ok {a : α} {b : β} {s t : State} : R a b → s.Like t → Tied R (.ok a s) (.ok b t)
  | error {d e : SyntaxError} {s t : State} : d.Like e → s.Like t → Tied R (.error d s) (.error e t)

/-- From states that are alike the two productions come to outcomes that are alike. -/
def Twin {α β : Type} (R : α → β → Prop) (p : Production α) (q : Production β) : Prop :=
  ∀ s t : State, s.Like t → Tied R (p s) (q t)

section

variable {α β γ δ : Type} {R : α → β → Prop} {R' : γ → δ → Prop} {S T : Setting} {s t : State}

theorem Twin.pure {a : α} {b : β} (h : R a b) : Twin R (pure a) (pure b) := fun _ _ hs => .ok h hs

theorem Twin.bind {p : Production α} {q : Production β} {f : α → Production γ} {g : β → Production δ}
    (h : Twin R p q) (hf : ∀ a b, R a b → Twin R' (f a) (g b)) : Twin R' (p >>= f) (q >>= g) := by
  intro s t hs
  have hpq := h s t hs
  show Tied R' (EStateM.bind p f s) (EStateM.bind q g t)
  unfold EStateM.bind
  generalize p s = r at hpq ⊢
  generalize q t = r' at hpq ⊢
  cases hpq with
  | ok hab hs' => exact hf _ _ hab _ _ hs'
  | error he hs' => exact .error he hs'

theorem State.Like.current (hS : S.Like T) (h : s.Like t) : (s.current S).Like (t.current T) := by
  unfold State.current
  have hrest := h.rest
  generalize s.rest = xs at hrest ⊢
  generalize t.rest = ys at hrest ⊢
  cases hrest with
  | nil => exact hS.closing
  | cons hxy _ => exact hxy

theorem State.Like.next (h : s.Like t) : s.next.Like t.next := by
  obtain ⟨i, xs, f⟩ := s
  obtain ⟨j, ys, g⟩ := t
  obtain ⟨hi, hr, hf⟩ := h
  simp only at hi hr hf
  subst hi hf
  cases hr with
  | nil => exact ⟨rfl, .nil, rfl⟩
  | @cons x y xs ys hxy hrest =>
    unfold State.next
    simp only [hxy.kind]
    split
    · exact ⟨rfl, .cons hxy hrest, rfl⟩
    · exact ⟨rfl, hrest, rfl⟩

theorem State.Like.refusal (hS : S.Like T) (h : s.Like t) (ks : KindSet) :
    (s.refusal S ks).Like (t.refusal T ks) := by
  have hc := h.current hS
  unfold State.refusal
  rw [hc.kind, h.index]
  split
  · exact .unexpectedEnd hc
  · exact .unexpected hc

/-! ## The steps -/

section

variable (hS : S.Like T)

include hS

theorem peek_twin : Twin (· = ·) (peek S) (peek T) := fun _ _ hs => .ok (hs.current hS).kind hs

theorem advance_twin : Twin Token.Like (advance S) (advance T) := fun _ _ hs => .ok (hs.current hS) hs.next

theorem refuse_twin (ks : KindSet) : Twin R (refuse S ks) (refuse T ks) := fun _ _ hs => .error (hs.refusal hS ks) hs

theorem consume_twin (k : Kind) : Twin Token.Like (consume S k) (consume T k) := by
  intro s t hs
  unfold consume
  rw [(hs.current hS).kind]
  split
  · exact advance_twin hS s t hs
  · exact refuse_twin hS _ s t hs

theorem close_twin (k : Kind) : Twin Token.Like (close S k) (close T k) := by
  intro s t hs
  unfold close
  rw [(hs.current hS).kind, hs.follow]
  split
  · exact advance_twin hS s t hs
  · exact refuse_twin hS _ s t hs

theorem tooDeep_twin : Twin R (tooDeep S) (tooDeep T) := by
  intro s t hs
  unfold tooDeep
  rw [hs.index, hS.limit]
  exact .error (.tooDeep (hs.current hS)) hs

theorem literal_twin {read : Token → Int → Except SyntaxError α}
    (hread : ∀ t u : Token, t.Like u → ∀ i, Literal.Same (read t i) (read u i)) :
    Twin (fun a b => a.1 = b.1 ∧ a.2.Like b.2) (literal S read) (literal T read) := by
  intro s t hs
  have hc := hs.current hS
  have hr := hread _ _ hc s.index
  unfold literal
  rw [← hs.index]
  generalize read (s.current S) s.index = x at hr ⊢
  generalize read (t.current T) s.index = y at hr ⊢
  cases x <;> cases y
  · exact .error hr hs.next
  · exact hr.elim
  · exact hr.elim
  · exact .ok ⟨hr, hc⟩ hs.next

end

theorem setFollow_twin (f : KindSet) : Twin (· = ·) (setFollow f) (setFollow f) :=
  fun _ _ hs => .ok rfl ⟨hs.index, hs.rest, rfl⟩

theorem remaining_twin : Twin (List.Forall₂ Token.Like) remaining remaining := fun _ _ hs => .ok hs.rest hs

end

/-! ## The tiers -/

/-- The trees differ in their marks at most. -/
def SameTree (u v : Marked) : Prop := u.bare = v.bare

section

variable {S T : Setting} {p q types types' : Production Marked}

section

variable (hS : S.Like T)

include hS

theorem atomicType_twin (h : Twin SameTree p q) : Twin SameTree (atomicType S p) (atomicType T q) := by
  refine (peek_twin hS).bind ?_
  intro k _ hk
  subst hk
  cases k with
  | kwInt | kwBool => exact (advance_twin hS).bind fun _ _ _ => .pure rfl
  | leftParen =>
    refine (advance_twin hS).bind fun _ _ _ => h.bind fun u v huv => ?_
    exact (close_twin hS _).bind fun _ _ _ => .pure huv
  | _ => exact refuse_twin hS _

theorem typeTier_twin (h : Twin SameTree p q) : Twin SameTree (typeTier S p) (typeTier T q) := by
  refine (atomicType_twin hS h).bind fun u v huv => (peek_twin hS).bind ?_
  intro k _ hk
  subst hk
  split
  · refine (advance_twin hS).bind fun _ _ _ => h.bind fun r r' hr => .pure ?_
    exact congrArg₂ (fun p r => Tree.arrow p r ()) huv hr
  · exact (setFollow_twin _).bind fun _ _ _ => .pure huv

theorem typeExpr_twin (n : Nat) : Twin SameTree (typeExpr S n) (typeExpr T n) := by
  induction n with
  | zero => exact tooDeep_twin hS
  | succ n ih => exact typeTier_twin hS ih

theorem term_twin (h : Twin SameTree p q) : Twin SameTree (term S p) (term T q) := by
  refine (peek_twin hS).bind ?_
  intro k _ hk
  subst hk
  cases k with
  | integer =>
    refine (literal_twin hS fun _ _ => Literal.integer_like).bind fun a b hab => .pure ?_
    exact congrArg (fun n : Nat => Tree.literal (.number n) "integer" ()) hab.1
  | kwTrue | kwFalse =>
    refine (literal_twin hS fun _ _ => Literal.boolean_like).bind fun a b hab => .pure ?_
    exact congrArg (fun b => Tree.literal (.truth b) "boolean" ()) hab.1
  | identifier =>
    refine (advance_twin hS).bind fun t u htu => .pure ?_
    exact congrArg (fun x => Tree.var x ()) htu.lexeme
  | leftParen =>
    refine (advance_twin hS).bind fun _ _ _ => h.bind fun u v huv => ?_
    exact (close_twin hS _).bind fun _ _ _ => .pure huv
  | _ => exact refuse_twin hS _

theorem arguments_twin (h : Twin SameTree p q) {bound bound' : List Token}
    (hb : List.Forall₂ Token.Like bound bound') {u v : Marked} (huv : SameTree u v) :
    Twin SameTree (arguments S p bound u) (arguments T q bound' v) := by
  induction hb generalizing u v with
  | nil => exact .pure huv
  | cons _ _ ih =>
    refine (peek_twin hS).bind ?_
    intro k _ hk
    subst hk
    split
    · exact (term_twin hS h).bind fun a b hab => ih (congrArg₂ (fun f a => Tree.apply f a ()) huv hab)
    · exact .pure huv

theorem application_twin (h : Twin SameTree p q) : Twin SameTree (application S p) (application T q) :=
  (term_twin hS h).bind fun _ _ huv => remaining_twin.bind fun _ _ hb => arguments_twin hS h hb huv

theorem operands_twin {op? : Kind → Option ArithOp} (h : Twin SameTree p q) {bound bound' : List Token}
    (hb : List.Forall₂ Token.Like bound bound') {u v : Marked} (huv : SameTree u v) :
    Twin SameTree (operands S op? p bound u) (operands T op? q bound' v) := by
  induction hb generalizing u v with
  | nil => exact .pure huv
  | cons _ _ ih =>
    refine (peek_twin hS).bind ?_
    intro k _ hk
    subst hk
    cases op? k with
    | none => exact .pure huv
    | some op =>
      refine (advance_twin hS).bind fun _ _ _ => h.bind fun r r' hr => ih ?_
      exact congrArg₂ (fun l r => Tree.arith op l r ()) huv hr

theorem chain_twin {op? : Kind → Option ArithOp} (h : Twin SameTree p q) :
    Twin SameTree (chain S op? p) (chain T op? q) :=
  h.bind fun _ _ huv => remaining_twin.bind fun _ _ hb => operands_twin hS h hb huv

theorem sum_twin (h : Twin SameTree p q) : Twin SameTree (sum S p) (sum T q) :=
  chain_twin hS (chain_twin hS (application_twin hS h))

theorem comparison_twin (h : Twin SameTree p q) : Twin SameTree (comparison S p) (comparison T q) := by
  refine (sum_twin hS h).bind fun l l' hl => (peek_twin hS).bind ?_
  intro k _ hk
  subst hk
  cases compareOp? k with
  | none => exact (setFollow_twin _).bind fun _ _ _ => .pure hl
  | some op =>
    refine (advance_twin hS).bind fun _ _ _ => (sum_twin hS h).bind fun r r' hr => ?_
    refine (setFollow_twin _).bind fun _ _ _ => .pure ?_
    exact congrArg₂ (fun l r => Tree.compare op l r ()) hl hr

theorem conditional_twin (h : Twin SameTree p q) : Twin SameTree (conditional S p) (conditional T q) := by
  refine (advance_twin hS).bind fun _ _ _ => h.bind fun c c' hc => (close_twin hS _).bind fun _ _ _ => ?_
  refine h.bind fun y y' hy => (close_twin hS _).bind fun _ _ _ => h.bind fun z z' hz => .pure ?_
  show Tree.cond c.bare y.bare z.bare () = Tree.cond c'.bare y'.bare z'.bare ()
  rw [hc, hy, hz]

theorem function_twin (h : Twin SameTree p q) (ht : Twin SameTree types types') :
    Twin SameTree (function S p types) (function T q types') := by
  refine (advance_twin hS).bind fun _ _ _ => (consume_twin hS _).bind fun x x' hx => ?_
  refine (consume_twin hS _).bind fun _ _ _ => ht.bind fun d d' hd => (close_twin hS _).bind fun _ _ _ => ?_
  refine ht.bind fun r r' hr => (close_twin hS _).bind fun _ _ _ => h.bind fun b b' hb => .pure ?_
  show Tree.func x.lexeme d.bare r.bare b.bare () = Tree.func x'.lexeme d'.bare r'.bare b'.bare ()
  rw [hx.lexeme, hd, hr, hb]

theorem expressionTier_twin (h : Twin SameTree p q) (ht : Twin SameTree types types') :
    Twin SameTree (expressionTier S p types) (expressionTier T q types') := by
  refine (peek_twin hS).bind ?_
  intro k _ hk
  subst hk
  split
  · exact conditional_twin hS h
  split
  · exact function_twin hS h ht
  split
  · exact comparison_twin hS h
  · exact refuse_twin hS _

theorem expression_twin (n : Nat) : Twin SameTree (expression S n) (expression T n) := by
  induction n with
  | zero => exact tooDeep_twin hS
  | succ n ih => exact expressionTier_twin hS ih (typeExpr_twin hS n)

theorem root_twin (n : Nat) (g : Goal) : Twin SameTree (root S n g) (root T n g) := by
  have hg : Twin SameTree (goalProduction S n g) (goalProduction T n g) := by
    cases g with
    | expression => exact expression_twin hS n
    | type => exact typeExpr_twin hS n
  exact hg.bind fun _ _ huv => (close_twin hS _).bind fun _ _ _ => .pure huv

end

end

end Parse

/-! ## Whole readings -/

namespace Stream

variable {xs ys ts us : List Token} {t u : Token}

theorem ofTokens_closed (h : t.kind = .finish) : ofTokens (xs ++ [t]) = ⟨xs, t, h⟩ := by
  unfold ofTokens
  simp [h]

theorem ofTokens_open (h : t.kind ≠ .finish) :
    ofTokens (xs ++ [t]) = ⟨xs ++ [t], .finish (endOf (xs ++ [t])), rfl⟩ := by
  unfold ofTokens
  simp [h]

theorem finish_like (l l' : Location) : (Token.finish l).Like (Token.finish l') := ⟨rfl, rfl⟩

theorem like_concat (h : List.Forall₂ Token.Like (xs ++ [t]) us) :
    ∃ ys u, us = ys ++ [u] ∧ List.Forall₂ Token.Like xs ys ∧ t.Like u := by
  have hr : List.Forall₂ Token.Like (t :: xs.reverse) us.reverse := by
    rw [← List.reverse_concat', List.forall₂_reverse_iff]
    exact h
  obtain ⟨u, ys, htu, hxy, hu⟩ := List.forall₂_cons_left_iff.mp hr
  refine ⟨ys.reverse, u, ?_, ?_, htu⟩
  · rw [← List.reverse_cons, ← hu, List.reverse_reverse]
  · rw [← List.forall₂_reverse_iff, List.reverse_reverse]
    exact hxy

/-- Lists that are alike are alike with their ends. -/
theorem ofTokens_like (h : List.Forall₂ Token.Like ts us) :
    (ofTokens ts).closing.Like (ofTokens us).closing ∧ List.Forall₂ Token.Like (ofTokens ts).body (ofTokens us).body := by
  rcases List.eq_nil_or_concat ts with rfl | ⟨xs, t, rfl⟩
  · obtain rfl := List.forall₂_nil_left_iff.mp h
    exact ⟨finish_like _ _, .nil⟩
  · rw [List.concat_eq_append] at h ⊢
    obtain ⟨ys, u, rfl, hxy, htu⟩ := like_concat h
    by_cases ht : t.kind = .finish
    · rw [ofTokens_closed ht, ofTokens_closed (htu.kind ▸ ht)]
      exact ⟨htu, hxy⟩
    · rw [ofTokens_open ht, ofTokens_open (htu.kind ▸ ht)]
      exact ⟨finish_like _ _, h⟩

end Stream

/-- Faults of texts whose tokens were refused, with errors that say the same. -/
def Fault.SaysSame : Fault → Fault → Prop
  | .grammatical d, .grammatical e => d.SaysSame e
  | _, _ => False

/-- One tree but for the marks, or errors that say the same. -/
def SameReading {ε : Type} (R : ε → ε → Prop) : Except ε (Tree Span) → Except ε (Tree Span) → Prop
  | .ok u, .ok v => u.bare = v.bare ∧ u.same v = true
  | .error d, .error e => R d e
  | _, _ => False

open Parse

variable {g : Goal} {limit : Int} {ts us : List Token}

theorem sameReading_of_like (g : Goal) (limit : Int) (h : List.Forall₂ Token.Like ts us) :
    SameReading SyntaxError.SaysSame (readTokens g limit ts) (readTokens g limit us) := by
  obtain ⟨hclosing, hbody⟩ := Stream.ofTokens_like h
  have hS : (settingOf (.ofTokens ts) limit).Like (settingOf (.ofTokens us) limit) := ⟨hclosing, rfl⟩
  have hs : (initial (.ofTokens ts)).Like (initial (.ofTokens us)) := ⟨rfl, hbody, rfl⟩
  have hroot := root_twin hS (levels limit 0) g _ _ hs
  unfold readTokens readStream
  generalize root _ (levels limit 0) g (initial (.ofTokens ts)) = r at hroot ⊢
  generalize root _ (levels limit 0) g (initial (.ofTokens us)) = r' at hroot ⊢
  cases hroot with
  | ok huv _ => exact ⟨huv, Tree.same_of_bare huv⟩
  | error he _ => exact he.saysSame

theorem readText_of_tokenize {file source : String} (h : tokenize file source = .ok ts) :
    readText g limit file source = (readTokens g limit ts).mapError Fault.grammatical := by
  unfold readText
  cases hr : readTokens g limit ts <;> simp [h, hr, Except.mapError]

/-- Lists of tokens that differ in values and places only are read alike, and so are texts that
    are cut into such lists. -/
theorem readTokens_layout (g : Goal) (limit : Int) :
    (∀ ts us, List.Forall₂ Token.Like ts us →
      SameReading SyntaxError.SaysSame (readTokens g limit ts) (readTokens g limit us)) ∧
    ∀ file source file' source' ts us, tokenize file source = .ok ts → tokenize file' source' = .ok us →
      List.Forall₂ Token.Like ts us →
      SameReading Fault.SaysSame (readText g limit file source) (readText g limit file' source') := by
  refine ⟨fun ts us h => sameReading_of_like g limit h, ?_⟩
  intro file source file' source' ts us hts hus h
  have hread := sameReading_of_like g limit h
  rw [readText_of_tokenize hts, readText_of_tokenize hus]
  generalize readTokens g limit ts = x at hread ⊢
  generalize readTokens g limit us = y at hread ⊢
  cases x <;> cases y <;> exact hread

theorem readTokens_layout_lines : ∃ ts us, tokenize "f" "a )" = .ok ts ∧ tokenize "g" "\n a\n)" = .ok us ∧
    List.Forall₂ Token.Like ts us ∧
    SameReading SyntaxError.SaysSame (readTokens .expression 1 ts) (readTokens .expression 1 us) ∧
    SameReading Fault.SaysSame (readText .expression 1 "f" "a )") (readText .expression 1 "g" "\n a\n)") := by
  have h : List.Forall₂ Token.Like (Scan.ofText "f" "a )").tokens (Scan.ofText "g" "\n a\n)").tokens :=
    .cons ⟨rfl, rfl⟩ (.cons ⟨rfl, rfl⟩ (.cons ⟨rfl, rfl⟩ .nil))
  exact ⟨_, _, rfl, rfl, h, (readTokens_layout .expression 1).1 _ _ h,
    (readTokens_layout .expression 1).2 "f" "a )" "g" "\n a\n)" _ _ rfl rfl h⟩

end LambdaSyntax
