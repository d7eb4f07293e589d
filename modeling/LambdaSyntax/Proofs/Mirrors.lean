/-
  LambdaSyntax.Proofs.Mirrors — counting and looking up comes to what the productions do.

  A routine is `Kept` when it ends in reach, with a result or refusing the input and in no other
  way; it is `Matched` when the production ends with the same besides.

  `Mirrors S d b r p` says that `r` is matched by `p` wherever a session stands at the depth `d`
  with fewer than `b` tokens before the next end, and `Mirrors.bind` puts two of these together.
  The branches of a tier take their first token as it comes, so they are matched only where a
  token can be passed, and are kept anywhere (`Begins`).

  What nests is begun behind a token that was passed, with one less before the end, and so is a
  further round of a repetition. So the tokens before the end bound both: no routine runs out that
  has so many levels and rounds, whatever the limit (`mirrors_levels`, `arguments_matched`,
  `operands_matched`).
-/

import LambdaSyntax.Parse.Counted
import LambdaSyntax.Proofs.Reach
import LambdaSyntax.Proofs.Replay

namespace LambdaSyntax.Parse

variable {α β : Type} {S : Setting} {b d n : Nat} {s s' : Session} {k : Kind}

/-! ## Routines one after another -/

namespace Counted

open Session

theorem bind_ok {r : Routine α} {f : α → Routine β} {a : α} (h : r s = .ok a s') : (r >>= f) s = f a s' := by
  simp [bind, EStateM.bind, h]

theorem bind_error {r : Routine α} {f : α → Routine β} {e : Failure} (h : r s = .error e s') :
    (r >>= f) s = .error e s' := by
  simp [bind, EStateM.bind, h]

inductive Kept (s : Session) : EStateM.Result Failure Session α → Prop
  | ok {a : α} {s' : Session} : s.Reaches s' → Kept s (.ok a s')
  | refused {e : SyntaxError} {s' : Session} : s.Reaches s' → Kept s (.error (.refused e) s')

inductive Matched (s : Session) : EStateM.Result Failure Session α → EStateM.Result SyntaxError State α → Prop
  | ok {a : α} {s' : Session} : s.Reaches s' → Matched s (.ok a s') (.ok a s'.state)
  | refused {e : SyntaxError} {s' : Session} : s.Reaches s' → Matched s (.error (.refused e) s') (.error e s'.state)

variable {x : EStateM.Result Failure Session α} {y : EStateM.Result SyntaxError State α}

theorem Kept.before (h : Kept s' x) (hr : s.Reaches s') : Kept s x := by
  cases h with
  | ok h => exact .ok (hr.trans h)
  | refused h => exact .refused (hr.trans h)

theorem Matched.before (h : Matched s' x y) (hr : s.Reaches s') : Matched s x y := by
  cases h with
  | ok h => exact .ok (hr.trans h)
  | refused h => exact .refused (hr.trans h)

theorem Matched.kept (h : Matched s x y) : Kept s x := by
  cases h with
  | ok h => exact .ok h
  | refused h => exact .refused h

theorem Matched.bind {r : Routine α} {p : Production α} {f : α → Routine β} {g : α → Production β}
    (h : Matched s (r s) (p s.state))
    (hf : ∀ a s', s.Reaches s' → p s.state = .ok a s'.state → Matched s' (f a s') (g a s'.state)) :
    Matched s ((r >>= f) s) ((p >>= g) s.state) := by
  generalize hx : r s = x at h
  generalize hy : p s.state = y at h
  cases h with
  | ok hr =>
    rw [bind_ok hx, Parse.bind_ok hy]
    exact (hf _ _ hr hy).before hr
  | refused hr =>
    rw [bind_error hx, Parse.bind_error hy]
    exact .refused hr

def Mirrors (S : Setting) (d b : Nat) (r : Routine α) (p : Production α) : Prop :=
  ∀ s, Stands S d b s → Matched s (r s) (p s.state)

theorem mirrors_pure (a : α) : Mirrors S d b (pure a) (pure a) := fun s _ => .ok (.refl s)

/-- No session has fewer than no tokens before the end. -/
theorem mirrors_none (r : Routine α) (p : Production α) : Mirrors S d 0 r p :=
  fun _ hs => absurd hs.near (Nat.not_lt_zero _)

theorem Mirrors.closer {r : Routine α} {p : Production α} (h : Mirrors S d (b + 1) r p) : Mirrors S d b r p :=
  fun s hs => h s hs.wider

theorem Mirrors.bind {r : Routine α} {p : Production α} {f : α → Routine β} {g : α → Production β}
    (h : Mirrors S d b r p) (hf : ∀ a, Mirrors S d b (f a) (g a)) : Mirrors S d b (r >>= f) (p >>= g) :=
  fun s hs => (h s hs).bind fun a s' hr _ => hf a s' (hs.reaches hr)

/-- What begins with the current token, whatever it is. The end is not passed, any other token is. -/
structure Begins (S : Setting) (d b : Nat) (r : Routine α) (p : Production α) : Prop where
  kept : ∀ s, Stands S d b s → Kept s (r s)
  matched : ∀ s, Stands S d (b + 1) s → s.peek.kind ≠ .finish → Matched s (r s) (p s.state)

/-! ## The steps -/

theorem tokenAt_eq {i : Nat} (h : i < s.stream.size) : tokenAt i s = .ok (s.stream.tokenAt i) s := by
  unfold tokenAt
  rw [Stream.getElem?_tokens h]

theorem peek_eq (h : s.InRange) : peek s = .ok s.peek s := tokenAt_eq h

theorem kind_eq (h : s.InRange) : kind s = .ok s.peek.kind s := bind_ok (peek_eq h)

theorem check_eq (h : s.InRange) (k : Kind) : check k s = .ok (decide (s.peek.kind = k)) s := bind_ok (kind_eq h)

theorem previous_eq (h : s.InRange) : previous s = .ok s.previous s := by
  have hi : ∀ i, i ≤ s.current → i < s.stream.size := fun i hi => Nat.lt_of_le_of_lt hi h
  show (if 0 < s.current then tokenAt (s.current - 1) else tokenAt 0) s = _
  by_cases h0 : 0 < s.current
  · rw [if_pos h0]
    exact tokenAt_eq (hi _ (Nat.sub_le _ _))
  · rw [if_neg h0, tokenAt_eq (hi 0 (Nat.zero_le _)), Session.previous, Nat.eq_zero_of_not_pos h0]

theorem advance_eq (h : s.InRange) : advance s = .ok s.advance.previous s.advance := by
  unfold advance
  rw [bind_ok (check_eq h .finish)]
  by_cases hk : s.peek.kind = .finish
  · rw [if_pos (decide_eq_true hk), advance_of_finish hk]
    exact previous_eq h
  · rw [if_neg (by simpa using hk)]
    have hr := (reaches_advance s).inRange h
    rw [advance_of_ne hk] at hr ⊢
    exact previous_eq hr

theorem pass_eq (h : s.InRange) (k : Kind) :
    pass k s = if s.peek.kind = k then .ok true s.advance else .ok false s := by
  unfold pass
  rw [bind_ok (check_eq h k)]
  by_cases hk : s.peek.kind = k
  · rw [if_pos (decide_eq_true hk), if_pos hk]
    exact bind_ok (advance_eq h)
  · rw [if_neg (by simpa using hk), if_neg hk]
    rfl

theorem refuse_eq (h : s.InRange) (expected : KindSet) :
    (refuse expected : Routine α) s = .error (.refused (s.state.refusal s.setting expected)) s := by
  unfold refuse
  rw [bind_ok (peek_eq h)]
  show (if s.peek.kind = .finish then _ else _ : Routine α) s = _
  unfold State.refusal
  have hc : s.state.current s.setting = s.peek := rfl
  rw [hc]
  by_cases hk : s.peek.kind = .finish
  · rw [if_pos hk, if_pos hk]
    rfl
  · rw [if_neg hk, if_neg hk]
    rfl

theorem consume_eq (h : s.InRange) (k : Kind) (also : KindSet) :
    consume k also s = if s.peek.kind = k then .ok s.advance.previous s.advance
      else .error (.refused (s.state.refusal s.setting (also ∪ .single k))) s := by
  unfold consume
  rw [bind_ok (check_eq h k)]
  by_cases hk : s.peek.kind = k
  · rw [if_pos (decide_eq_true hk), if_pos hk]
    exact advance_eq h
  · rw [if_neg (by simpa using hk), if_neg hk]
    exact refuse_eq h _

theorem tooDeep_eq (h : s.InRange) :
    (tooDeep : Routine α) s = .error (.refused (.tooDeep s.peek s.current s.limit)) s := by
  unfold tooDeep
  rw [bind_ok (peek_eq h)]
  rfl

theorem enter_eq (h : s.InRange) :
    enter s = if s.limit < (s.depth + 1 : Nat) then
        .error (.refused (.tooDeep s.peek s.current s.limit)) { s with depth := s.depth + 1 }
      else .ok () { s with depth := s.depth + 1 } := by
  have hd : descend s = .ok () { s with depth := s.depth + 1 } := rfl
  unfold enter
  rw [bind_ok hd]
  show (if decide (s.limit < (s.depth + 1 : Nat)) = true then tooDeep else pure ()) { s with depth := s.depth + 1 } = _
  by_cases hl : s.limit < (s.depth + 1 : Nat)
  · rw [if_pos (decide_eq_true hl), if_pos hl]
    exact tooDeep_eq (s := { s with depth := s.depth + 1 }) h
  · rw [if_neg (by simpa using hl), if_neg hl]
    rfl

/-! ## The steps as productions -/

theorem mirrors_kind {f : Kind → Routine α} {g : Kind → Production α}
    (h : ∀ s, Stands S d b s → Matched s (f s.peek.kind s) (g s.peek.kind s.state)) :
    Mirrors S d b (kind >>= f) (Parse.peek S >>= g) := by
  intro s hs
  rw [bind_ok (kind_eq hs.inRange), peek_bind, hs.current]
  exact h s hs

theorem mirrors_refuse (expected : KindSet) :
    Mirrors S d b (refuse expected : Routine α) (Parse.refuse S expected) := by
  intro s hs
  rw [refuse_eq hs.inRange, hs.setting]
  exact .refused (.refl s)

theorem mirrors_setFollow (f : KindSet) : Mirrors S d b (setFollow f) (Parse.setFollow f) :=
  fun s _ => .ok ((Reaches.refl s).follow f)

theorem advance_run (hs : Stands S d b s) : Parse.advance S s.state = .ok s.peek s.advance.state := by
  rw [Parse.advance, hs.current, state_advance]

theorem advance_matched {f : Token → Routine α} {g : Token → Production α} (hs : Stands S d b s)
    (hk : s.peek.kind ≠ .finish) (h : Matched s.advance (f s.peek s.advance) (g s.peek s.advance.state)) :
    Matched s ((advance >>= f) s) ((Parse.advance S >>= g) s.state) := by
  rw [bind_ok (advance_eq hs.inRange), Parse.bind_ok (advance_run hs), previous_advance hk]
  exact h.before (reaches_advance s)

theorem mirrors_consume (hk : k ≠ .finish) : Mirrors S d b (consume k ∅) (Parse.consume S k) := by
  intro s hs
  rw [consume_eq hs.inRange]
  unfold Parse.consume
  rw [hs.current]
  by_cases h : s.peek.kind = k
  · have hne : s.peek.kind ≠ .finish := by rw [h]; exact hk
    rw [if_pos h, if_pos h, previous_advance hne, advance_run hs]
    exact .ok (reaches_advance s)
  · have hu : (∅ ∪ .single k : KindSet) = .single k := by ext j; simp
    rw [if_neg h, if_neg h, hu, hs.setting]
    exact .refused (.refl s)

/-- The token is of no use to what follows, so it may also be the end. -/
theorem mirrors_close (k : Kind) {r : Routine α} {p : Production α} (h : Mirrors S d b r p) :
    Mirrors S d b (close k >>= fun _ => r) (Parse.close S k >>= fun _ => p) := by
  intro s hs
  have hc : close k s = consume k s.follow s := rfl
  rw [consume_eq hs.inRange] at hc
  by_cases hk : s.peek.kind = k
  · rw [if_pos hk] at hc
    have hp : Parse.close S k s.state = .ok s.peek s.advance.state := by
      unfold Parse.close
      rw [hs.current, if_pos hk, advance_run hs]
    rw [bind_ok hc, Parse.bind_ok hp]
    exact (h _ (hs.reaches (reaches_advance s))).before (reaches_advance s)
  · rw [if_neg hk] at hc
    have hp : Parse.close S k s.state = .error (s.state.refusal S (s.follow ∪ .single k)) s.state := by
      unfold Parse.close
      rw [hs.current, if_neg hk]
      rfl
    rw [bind_error hc, Parse.bind_error hp, hs.setting]
    exact .refused (.refl s)

theorem begins_advance {f : Token → Routine α} {g : Token → Production α} (h : ∀ t, Mirrors S d b (f t) (g t)) :
    Begins S d b (advance >>= f) (Parse.advance S >>= g) := by
  refine ⟨fun s hs => ?_, fun s hs hk => advance_matched hs hk (h _ _ (hs.advance hk))⟩
  rw [bind_ok (advance_eq hs.inRange)]
  exact (h _ _ (hs.reaches (reaches_advance s))).kept.before (reaches_advance s)

theorem literal_eq (h : s.InRange) (read : Token → Int → Except SyntaxError α) :
    literal read s = match read s.advance.previous s.current with
      | .ok a => .ok (a, s.advance.previous) s.advance
      | .error e => .error (.refused e) s.advance := by
  have hi : index s = .ok s.current s := rfl
  unfold literal
  rw [bind_ok hi, bind_ok (advance_eq h)]
  cases read s.advance.previous s.current with
  | ok a => rfl
  | error e => rfl

theorem begins_literal {read : Token → Int → Except SyntaxError β} {f : β × Token → Routine α}
    {g : β × Token → Production α} (h : ∀ a, Mirrors S d b (f a) (g a)) :
    Begins S d b (literal read >>= f) (Parse.literal S read >>= g) := by
  have hstep (s : Session) (hs : Stands S d b s.advance) (a : β × Token) :
      Matched s (f a s.advance) (g a s.advance.state) :=
    (h a _ hs).before (reaches_advance s)
  refine ⟨fun s hs => ?_, fun s hs hk => ?_⟩
  · have hl := literal_eq hs.inRange read
    cases hr : read s.advance.previous s.current with
    | ok a =>
      rw [hr] at hl
      rw [bind_ok hl]
      exact (hstep s (hs.reaches (reaches_advance s)) _).kept
    | error e =>
      rw [hr] at hl
      rw [bind_error hl]
      exact .refused (reaches_advance s)
  · have hl := literal_eq hs.inRange read
    rw [previous_advance hk] at hl
    have hp : Parse.literal S read s.state = match read s.peek s.current with
        | .ok a => .ok (a, s.peek) s.advance.state
        | .error e => .error e s.advance.state := by
      unfold Parse.literal
      rw [hs.current, state_advance]
      rfl
    cases hr : read s.peek s.current with
    | ok a =>
      rw [hr] at hl hp
      rw [bind_ok hl, Parse.bind_ok hp]
      exact hstep s (hs.advance hk) _
    | error e =>
      rw [hr] at hl hp
      rw [bind_error hl, Parse.bind_error hp]
      exact .refused (reaches_advance s)

/-! ## Levels -/

theorem leave_eq (h : s.depth = d + 1) : leave s = .ok () { s with depth := d } := by
  unfold leave
  rw [h]

/-- What happens one level down happens, seen from above, at the level above. -/
theorem Matched.leaving {s₁ : Session} (h : Matched s₁ x y) (h₁ : s₁ = { s with depth := s.depth + 1 }) :
    Matched s (leaving x) y := by
  subst h₁
  have hback {s' : Session} (hr : ({ s with depth := s.depth + 1 } : Session).Reaches s') :
      leave s' = .ok () { s' with depth := s.depth } ∧ s.Reaches { s' with depth := s.depth } :=
    ⟨leave_eq hr.depth, hr.stream, hr.limit, rfl, hr.forward, hr.ends⟩
  cases h with
  | ok hr =>
    obtain ⟨hl, hr'⟩ := hback hr
    show Matched s ((leave >>= fun _ => pure _ : Routine α) _) _
    rw [bind_ok hl]
    exact .ok hr'
  | refused hr =>
    obtain ⟨hl, hr'⟩ := hback hr
    show Matched s ((leave >>= fun _ => throw _ : Routine α) _) _
    rw [bind_ok hl]
    exact .refused hr'

/-- A level that the limit allows. -/
theorem mirrors_level {r : Routine α} {p : Production α} (hl : (d + 1 : Nat) ≤ S.limit)
    (h : Mirrors S (d + 1) b r p) : Mirrors S d b (level r) p := by
  intro s hs
  have hlimit : ¬ s.limit < (s.depth + 1 : Nat) := by
    rw [← hs.setting, ← hs.depth] at hl
    exact Int.not_lt.mpr hl
  have he : enter s = .ok () { s with depth := s.depth + 1 } := by rw [enter_eq hs.inRange, if_neg hlimit]
  unfold level
  rw [bind_ok he]
  refine Matched.leaving (h _ ⟨hs.setting, ?_, hs.inRange, hs.near⟩) rfl
  show s.depth + 1 = d + 1
  rw [hs.depth]

/-- A level too many; it is left again although nothing ran there. -/
theorem mirrors_level_tooDeep {r : Routine α} (hl : S.limit < (d + 1 : Nat)) :
    Mirrors S d b (level r) (Parse.tooDeep S) := by
  intro s hs
  have hlimit : s.limit < (s.depth + 1 : Nat) := by
    rw [← hs.setting, ← hs.depth] at hl
    exact hl
  have he : enter s = .error (.refused (.tooDeep s.peek s.current s.limit)) { s with depth := s.depth + 1 } := by
    rw [enter_eq hs.inRange, if_pos hlimit]
  have hp : (Parse.tooDeep S : Production α) s.state = .error (.tooDeep s.peek s.current s.limit) s.state := by
    rw [← hs.setting]
    rfl
  unfold level
  rw [bind_error he, hp]
  exact Matched.leaving (.refused (.refl _)) rfl

theorem levels_succ {limit : Int} (h : levels limit d = n + 1) :
    (d + 1 : Nat) ≤ limit ∧ levels limit (d + 1 : Nat) = n := by
  unfold levels at *
  omega

theorem levels_zero {limit : Int} (h : levels limit d = 0) : limit < (d + 1 : Nat) := by
  unfold levels at h
  omega

/-- A recursion on levels. As many levels as the limit leaves are enough for it, and so are as many as
    the tokens before the end, for what a level runs passes one before it goes down another. -/
theorem mirrors_levels {r body : Nat → Routine α} {q : Nat → Production α}
    (hzero : r 0 = level (throw .exhausted)) (hsucc : ∀ n, r (n + 1) = level (body n)) (hq : q 0 = Parse.tooDeep S)
    (hbody : ∀ {d b n : Nat}, levels S.limit d ≤ n ∨ b ≤ n → Mirrors S d b (r n) (q (levels S.limit d)) →
      Mirrors S d (b + 1) (body n) (q (levels S.limit d + 1)))
    (h : levels S.limit d ≤ n ∨ b ≤ n) : Mirrors S d b (r n) (q (levels S.limit d)) := by
  induction n generalizing d b with
  | zero =>
    cases hl : levels S.limit d with
    | zero =>
      rw [hzero, hq]
      exact mirrors_level_tooDeep (levels_zero hl)
    | succ m =>
      obtain rfl : b = 0 := by omega
      exact mirrors_none _ _
  | succ n ih =>
    cases hl : levels S.limit d with
    | zero =>
      rw [hsucc, hq]
      exact mirrors_level_tooDeep (levels_zero hl)
    | succ m =>
      obtain ⟨hlimit, rfl⟩ := levels_succ hl
      cases b with
      | zero => exact mirrors_none _ _
      | succ b =>
        have hnested : levels S.limit (d + 1 : Nat) ≤ n ∨ b ≤ n := by omega
        rw [hsucc]
        exact mirrors_level hlimit (hbody hnested (ih hnested))

/-! ## Types -/

section

variable {nested types : Routine Marked} {p q : Production Marked} {u : Marked}

theorem group_begins (hn : Mirrors S d b nested p) :
    Begins S d b (group nested) (do
      let _ ← Parse.advance S
      let inner ← p
      let _ ← Parse.close S .rightParen
      return inner) :=
  begins_advance fun _ => hn.bind fun a => mirrors_close _ (mirrors_pure a)

theorem intType_begins : Begins S d b intType (do let t ← Parse.advance S; return .int (.point t.loc)) :=
  begins_advance fun _ => mirrors_pure _

theorem boolType_begins : Begins S d b boolType (do let t ← Parse.advance S; return .bool (.point t.loc)) :=
  begins_advance fun _ => mirrors_pure _

theorem atomicType_mirrors (hn : Mirrors S d b nested p) :
    Mirrors S d (b + 1) (atomicType nested) (Parse.atomicType S p) := by
  refine mirrors_kind fun s hs => ?_
  cases hk : s.peek.kind with
  | kwInt => exact intType_begins.matched s hs (by simp [hk])
  | kwBool => exact boolType_begins.matched s hs (by simp [hk])
  | leftParen => exact (group_begins hn).matched s hs (by simp [hk])
  | _ => exact mirrors_refuse _ s hs

theorem typeTier_mirrors (hn : Mirrors S d b nested p) :
    Mirrors S d (b + 1) (typeTier nested) (Parse.typeTier S p) := by
  refine (atomicType_mirrors hn).bind fun domain s hs => ?_
  have hpass := pass_eq hs.inRange .arrow
  rw [peek_bind, hs.current]
  by_cases hk : s.peek.kind = .arrow
  · rw [if_pos hk] at hpass ⊢
    rw [bind_ok hpass, Parse.bind_ok (advance_run hs)]
    exact (hn.bind (fun _ => mirrors_pure _) _ (hs.advance (by simp [hk]))).before (reaches_advance s)
  · rw [if_neg hk] at hpass ⊢
    rw [bind_ok hpass]
    exact (mirrors_setFollow _).bind (fun _ => mirrors_pure _) s hs

theorem typeExpr_mirrors (h : levels S.limit d ≤ n ∨ b ≤ n) :
    Mirrors S d b (typeExpr n) (Parse.typeExpr S (levels S.limit d)) :=
  mirrors_levels (q := Parse.typeExpr S) rfl (fun _ => rfl) rfl (fun _ hn => typeTier_mirrors hn) h

/-! ## Terms and applications -/

theorem number_begins :
    Begins S d b number (do
      let (n, t) ← Parse.literal S Literal.integer
      return .literal (.number n) "integer" (.point t.loc)) :=
  begins_literal fun _ => mirrors_pure _

theorem truth_begins :
    Begins S d b truth (do
      let (b, t) ← Parse.literal S Literal.boolean
      return .literal (.truth b) "boolean" (.point t.loc)) :=
  begins_literal fun _ => mirrors_pure _

theorem name_begins : Begins S d b name (do let t ← Parse.advance S; return .var t.lexeme (.point t.loc)) :=
  begins_advance fun _ => mirrors_pure _

theorem term_mirrors (hn : Mirrors S d b nested p) : Mirrors S d (b + 1) (term nested) (Parse.term S p) := by
  refine mirrors_kind fun s hs => ?_
  cases hk : s.peek.kind with
  | integer => exact number_begins.matched s hs (by simp [hk])
  | kwTrue => exact truth_begins.matched s hs (by simp [hk])
  | kwFalse => exact truth_begins.matched s hs (by simp [hk])
  | identifier => exact name_begins.matched s hs (by simp [hk])
  | leftParen => exact (group_begins hn).matched s hs (by simp [hk])
  | _ => exact mirrors_refuse _ s hs

/-- A round passes a token, so one round for each token before the end and one to stop are enough. -/
theorem arguments_matched (hn : Mirrors S d b nested p) (hc : Consumes (Parse.term S p)) (bound : List Token)
    {rounds : Nat} (hs : Stands S d (b + 1) s) (hb : s.state.rest.length ≤ bound.length) (hr : s.ahead < rounds) :
    Matched s (arguments nested rounds u s) (Parse.arguments S p bound u s.state) := by
  induction bound generalizing s rounds u with
  | nil =>
    obtain ⟨rounds, rfl⟩ := Nat.exists_eq_add_one_of_ne_zero (Nat.ne_zero_of_lt hr)
    have hk : s.peek.kind = .finish := peek_of_rest_nil (List.eq_nil_of_length_eq_zero (Nat.le_zero.mp hb))
    unfold arguments Parse.arguments
    rw [bind_ok (kind_eq hs.inRange), hk, if_neg (by decide)]
    exact .ok (.refl s)
  | cons t bound ih =>
    obtain ⟨rounds, rfl⟩ := Nat.exists_eq_add_one_of_ne_zero (Nat.ne_zero_of_lt hr)
    unfold arguments Parse.arguments
    rw [bind_ok (kind_eq hs.inRange), peek_bind, hs.current]
    by_cases hk : s.peek.kind ∈ termStart
    · rw [if_pos hk, if_pos hk]
      refine (term_mirrors hn s hs).bind fun argument s' hs' hrun => ?_
      have hless : s'.state.rest.length < s.state.rest.length := hc _ _ _ hrun
      have hnear := hs'.ahead_lt hless
      rw [List.length_cons] at hb
      exact ih (hs.reaches hs') (by omega) (by omega)
    · rw [if_neg hk, if_neg hk]
      exact .ok (.refl s)

theorem application_mirrors (hn : Mirrors S d b nested p) (hc : Consumes (Parse.term S p)) :
    Mirrors S d (b + 1) (application nested) (Parse.application S p) := by
  refine (term_mirrors hn).bind fun _ s hs => ?_
  have hr : rounds s = .ok (s.stream.size - s.current) s := rfl
  rw [bind_ok hr, remaining_bind]
  exact arguments_matched hn hc _ hs (Nat.le_refl _) (ahead_lt hs.inRange)

/-! ## Sums and factors -/

theorem operands_matched {op? : Kind → Option ArithOp} (hop : op? .finish = none) (hn : Mirrors S d b nested p)
    (bound : List Token) {rounds : Nat} (hs : Stands S d b s) (hb : s.state.rest.length ≤ bound.length)
    (hr : s.ahead < rounds) :
    Matched s (operands op? nested rounds u s) (Parse.operands S op? p bound u s.state) := by
  induction bound generalizing s rounds u with
  | nil =>
    obtain ⟨rounds, rfl⟩ := Nat.exists_eq_add_one_of_ne_zero (Nat.ne_zero_of_lt hr)
    have hk : s.peek.kind = .finish := peek_of_rest_nil (List.eq_nil_of_length_eq_zero (Nat.le_zero.mp hb))
    unfold operands Parse.operands
    rw [bind_ok (kind_eq hs.inRange), hk, hop]
    exact .ok (.refl s)
  | cons t bound ih =>
    obtain ⟨rounds, rfl⟩ := Nat.exists_eq_add_one_of_ne_zero (Nat.ne_zero_of_lt hr)
    unfold operands Parse.operands
    rw [bind_ok (kind_eq hs.inRange), peek_bind, hs.current]
    cases hk : op? s.peek.kind with
    | none => exact .ok (.refl s)
    | some op =>
      have hne : s.peek.kind ≠ .finish := by
        intro h
        rw [h, hop] at hk
        cases hk
      refine advance_matched hs hne ?_
      refine (hn _ (hs.reaches (reaches_advance s))).bind fun right s' hs' _ => ?_
      have hlt := advance_rest_length_lt hne
      have hle := hs'.rest_length_le
      have hnear := ((reaches_advance s).trans hs').ahead_lt (by omega)
      rw [List.length_cons] at hb
      exact ih ((hs.reaches (reaches_advance s)).reaches hs') (by omega) (by omega)

theorem chain_mirrors {op? : Kind → Option ArithOp} (hop : op? .finish = none) (hn : Mirrors S d b nested p) :
    Mirrors S d b (chain op? nested) (Parse.chain S op? p) := by
  refine hn.bind fun _ s hs => ?_
  have hr : rounds s = .ok (s.stream.size - s.current) s := rfl
  rw [bind_ok hr, remaining_bind]
  exact operands_matched hop hn _ hs (Nat.le_refl _) (ahead_lt hs.inRange)

theorem factor_mirrors (hn : Mirrors S d b nested p) (hc : Consumes (Parse.term S p)) :
    Mirrors S d (b + 1) (factor nested) (Parse.factor S p) :=
  chain_mirrors rfl (application_mirrors hn hc)

theorem sum_mirrors (hn : Mirrors S d b nested p) (hc : Consumes (Parse.term S p)) :
    Mirrors S d (b + 1) (sum nested) (Parse.sum S p) :=
  chain_mirrors rfl (factor_mirrors hn hc)

/-! ## Expressions -/

theorem comparison_mirrors (hn : Mirrors S d b nested p) (hc : Consumes (Parse.term S p)) :
    Mirrors S d (b + 1) (comparison nested) (Parse.comparison S p) := by
  refine (sum_mirrors hn hc).bind fun left => mirrors_kind fun s hs => ?_
  cases hk : compareOp? s.peek.kind with
  | none => exact (mirrors_setFollow _).bind (fun _ => mirrors_pure _) s hs
  | some op =>
    have hne : s.peek.kind ≠ .finish := by
      intro h
      rw [h] at hk
      cases hk
    exact (begins_advance fun _ => (sum_mirrors hn hc).bind fun _ =>
      (mirrors_setFollow _).bind fun _ => mirrors_pure _).matched s hs.wider hne

theorem conditional_begins (hn : Mirrors S d b nested p) :
    Begins S d b (conditional nested) (Parse.conditional S p) :=
  begins_advance fun _ => hn.bind fun _ => mirrors_close _ (hn.bind fun _ => mirrors_close _ (hn.bind fun _ =>
    mirrors_pure _))

theorem function_begins (hn : Mirrors S d b nested p) (ht : Mirrors S d b types q) :
    Begins S d b (function nested types) (Parse.function S p q) :=
  begins_advance fun _ => (mirrors_consume (by decide)).bind fun _ => (mirrors_consume (by decide)).bind fun _ =>
    ht.bind fun _ => mirrors_close _ (ht.bind fun _ => mirrors_close _ (hn.bind fun _ => mirrors_pure _))

theorem expressionTier_mirrors (hn : Mirrors S d b nested p) (ht : Mirrors S d b types q)
    (hc : Consumes (Parse.term S p)) :
    Mirrors S d (b + 1) (expressionTier nested types) (Parse.expressionTier S p q) := by
  refine mirrors_kind fun s hs => ?_
  by_cases hif : s.peek.kind = .kwIf
  · rw [if_pos hif, if_pos hif]
    exact (conditional_begins hn).matched s hs (by simp [hif])
  by_cases hfun : s.peek.kind = .kwFun
  · rw [if_neg hif, if_neg hif, if_pos hfun, if_pos hfun]
    exact (function_begins hn ht).matched s hs (by simp [hfun])
  rw [if_neg hif, if_neg hif, if_neg hfun, if_neg hfun]
  by_cases hk : s.peek.kind ∈ expressionStart
  · rw [if_pos hk, if_pos hk]
    exact comparison_mirrors hn hc s hs
  · rw [if_neg hk, if_neg hk]
    exact mirrors_refuse _ s hs

theorem expression_mirrors (hS : S.closing.kind = .finish) (h : levels S.limit d ≤ n ∨ b ≤ n) :
    Mirrors S d b (expression n) (Parse.expression S (levels S.limit d)) :=
  mirrors_levels (q := Parse.expression S) rfl (fun _ => rfl) rfl
    (fun hl hn => expressionTier_mirrors hn (typeExpr_mirrors hl) (term_consumes hS)) h

end

/-! ## Every tier and every branch -/

theorem tier_mirrors (hS : S.closing.kind = .finish) (h : levels S.limit d ≤ n ∨ b ≤ n) (t : Tier) :
    Mirrors S d b (tier n t) (tierProduction S (levels S.limit d) t) := by
  have he := expression_mirrors hS h
  have ht := typeExpr_mirrors h
  have hc : Consumes (Parse.term S (Parse.expression S (levels S.limit d))) := term_consumes hS
  cases t with
  | expression => exact he
  | comparison => exact (comparison_mirrors he hc).closer
  | sum => exact (sum_mirrors he hc).closer
  | factor => exact (factor_mirrors he hc).closer
  | application => exact (application_mirrors he hc).closer
  | term => exact (term_mirrors he).closer
  | type => exact ht
  | atomicType => exact (atomicType_mirrors ht).closer

theorem branch_kept (h : levels S.limit d ≤ n ∨ b ≤ n) (hs : Stands S d b s) (x : Branch) :
    Kept s (branch n x s) := by
  have he := expression_mirrors hs.closing h
  have ht := typeExpr_mirrors h
  cases x with
  | conditional => exact (conditional_begins he).kept s hs
  | function => exact (function_begins he ht).kept s hs
  | number => exact number_begins.kept s hs
  | truth => exact truth_begins.kept s hs
  | name => exact name_begins.kept s hs
  | group => exact (group_begins he).kept s hs
  | intType => exact intType_begins.kept s hs
  | boolType => exact boolType_begins.kept s hs
  | typeGroup => exact (group_begins ht).kept s hs

theorem goal_mirrors (hS : S.closing.kind = .finish) (h : levels S.limit d ≤ n ∨ b ≤ n) (g : Goal) :
    Mirrors S d b (goal n g) (goalProduction S (levels S.limit d) g) := by
  cases g with
  | expression => exact expression_mirrors hS h
  | type => exact typeExpr_mirrors h

end Counted

end LambdaSyntax.Parse
