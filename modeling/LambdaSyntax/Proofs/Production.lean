/-
  LambdaSyntax.Proofs.Production — what the steps of a production do to a state.

  `Passed s ts s'` says that the tokens `ts` stand at `s` and that `s'` is the state behind
  them. `Ends Q R r` says of an outcome that it is a result with `Q` or an error with `R`;
  `Ends.bind` puts the outcomes of two productions together. The lemmas named `…_ends` say
  what a step does in any state, those named `…_at` what it does where its token stands.
-/

import LambdaSyntax.Parse.Descent

namespace LambdaSyntax.Parse

variable {S : Setting} {α β : Type}

/-! ## Running one production after another -/

theorem bind_ok {p : Production α} {f : α → Production β} {s s' : State} {a : α} (h : p s = .ok a s') :
    (p >>= f) s = f a s' := by
  simp [bind, EStateM.bind, h]

theorem bind_error {p : Production α} {f : α → Production β} {s s' : State} {e : SyntaxError}
    (h : p s = .error e s') : (p >>= f) s = .error e s' := by
  simp [bind, EStateM.bind, h]

def Ends (Q : α → State → Prop) (R : SyntaxError → State → Prop) : EStateM.Result SyntaxError State α → Prop
  | .ok a s => Q a s
  | .error e s => R e s

theorem Ends.mono {Q Q' : α → State → Prop} {R R' : SyntaxError → State → Prop}
    {r : EStateM.Result SyntaxError State α} (h : Ends Q R r) (hq : ∀ a s, Q a s → Q' a s)
    (hr : ∀ e s, R e s → R' e s) : Ends Q' R' r := by
  cases r with
  | ok a s => exact hq a s h
  | error e s => exact hr e s h

theorem Ends.bind {Q : α → State → Prop} {Q' : β → State → Prop} {R R' : SyntaxError → State → Prop}
    {p : Production α} {f : α → Production β} {s : State} (h : Ends Q R (p s)) (hr : ∀ e s', R e s' → R' e s')
    (hf : ∀ a s', Q a s' → Ends Q' R' (f a s')) : Ends Q' R' ((p >>= f) s) := by
  cases hp : p s with
  | ok a s' =>
    rw [hp] at h
    rw [bind_ok hp]
    exact hf a s' h
  | error e s' =>
    rw [hp] at h
    rw [bind_error hp]
    exact hr e s' h

/-! ## Passing tokens -/

structure Passed (s : State) (ts : List Token) (s' : State) : Prop where
  rest : s.rest = ts ++ s'.rest
  index : s'.index = s.index + ts.length

theorem Passed.refl (s : State) : Passed s [] s := ⟨rfl, rfl⟩

theorem Passed.trans {a b c : State} {ts us : List Token} (h : Passed a ts b) (k : Passed b us c) :
    Passed a (ts ++ us) c := by
  refine ⟨by rw [h.rest, k.rest, List.append_assoc], ?_⟩
  have := h.index
  have := k.index
  simp only [List.length_append]
  omega

/-- Only the place counts, not the kinds that are remembered. -/
theorem Passed.follow {s s' : State} {ts : List Token} (h : Passed s ts s') (f : KindSet) :
    Passed s ts { s' with follow := f } := ⟨h.rest, h.index⟩

@[simp] theorem current_cons (i : Nat) (t : Token) (ts : List Token) (f : KindSet) :
    (⟨i, t :: ts, f⟩ : State).current S = t := rfl

@[simp] theorem current_follow (s : State) (f : KindSet) :
    ({ s with follow := f } : State).current S = s.current S := rfl

theorem next_cons {i : Nat} {t : Token} {ts : List Token} {f : KindSet} (h : t.kind ≠ .finish) :
    (⟨i, t :: ts, f⟩ : State).next = ⟨i + 1, ts, f⟩ := by
  simp [State.next, h]

theorem passed_next (hS : S.closing.kind = .finish) {s : State} (h : (s.current S).kind ≠ .finish) :
    Passed s [s.current S] s.next := by
  obtain ⟨i, rest, f⟩ := s
  cases rest with
  | nil => exact absurd hS h
  | cons t ts =>
    rw [next_cons (t := t) h]
    exact ⟨rfl, rfl⟩

@[simp] theorem next_follow (s : State) : s.next.follow = s.follow := by
  unfold State.next
  split
  · rfl
  · split <;> rfl

/-! ## The steps in any state -/

theorem peek_bind (f : Kind → Production α) (s : State) : (peek S >>= f) s = f (s.current S).kind s := rfl

theorem remaining_bind (f : List Token → Production α) (s : State) : (remaining >>= f) s = f s.rest s := rfl

theorem advance_ends (hS : S.closing.kind = .finish) {s : State} (h : (s.current S).kind ≠ .finish)
    (R : SyntaxError → State → Prop) :
    Ends (fun t s' => t = s.current S ∧ Passed s [t] s' ∧ s'.follow = s.follow) R (advance S s) :=
  ⟨rfl, passed_next hS h, next_follow s⟩

theorem consume_ends (hS : S.closing.kind = .finish) {k : Kind} (hk : k ≠ .finish) (s : State) :
    Ends (fun t s' => t.kind = k ∧ Passed s [t] s' ∧ s'.follow = s.follow)
      (fun e _ => (s.current S).kind ≠ k ∧ e = s.refusal S (.single k)) (consume S k s) := by
  unfold consume
  by_cases h : (s.current S).kind = k
  · rw [if_pos h]
    exact ⟨h, passed_next hS (by rw [h]; exact hk), next_follow s⟩
  · rw [if_neg h]
    exact ⟨h, rfl⟩

theorem close_ends (hS : S.closing.kind = .finish) {k : Kind} (hk : k ≠ .finish) (s : State) :
    Ends (fun t s' => t.kind = k ∧ Passed s [t] s' ∧ s'.follow = s.follow)
      (fun e _ => (s.current S).kind ≠ k ∧ e = s.refusal S (s.follow ∪ .single k)) (close S k s) := by
  unfold close
  by_cases h : (s.current S).kind = k
  · rw [if_pos h]
    exact ⟨h, passed_next hS (by rw [h]; exact hk), next_follow s⟩
  · rw [if_neg h]
    exact ⟨h, rfl⟩

theorem literal_ends (hS : S.closing.kind = .finish) {s : State} (h : (s.current S).kind ≠ .finish)
    (read : Token → Int → Except SyntaxError α) :
    Ends (fun a s' => read (s.current S) s.index = .ok a.1 ∧ a.2 = s.current S ∧ Passed s [s.current S] s')
      (fun e _ => read (s.current S) s.index = .error e) (literal S read s) := by
  unfold literal
  cases hr : read (s.current S) s.index with
  | ok a => exact ⟨rfl, rfl, passed_next hS h⟩
  | error e => rfl

/-! ## The steps where their token stands -/

variable {i : Nat} {t : Token} {ts : List Token} {f : KindSet} {k : Kind}

theorem advance_at (h : t.kind ≠ .finish) : advance S ⟨i, t :: ts, f⟩ = .ok t ⟨i + 1, ts, f⟩ := by
  simp [advance, next_cons h]

theorem consume_at (h : t.kind = k) (hk : k ≠ .finish) : consume S k ⟨i, t :: ts, f⟩ = .ok t ⟨i + 1, ts, f⟩ := by
  have ha : advance S ⟨i, t :: ts, f⟩ = .ok t ⟨i + 1, ts, f⟩ := advance_at (by rw [h]; exact hk)
  simp [consume, h, ha]

theorem close_at (h : t.kind = k) (hk : k ≠ .finish) : close S k ⟨i, t :: ts, f⟩ = .ok t ⟨i + 1, ts, f⟩ := by
  have ha : advance S ⟨i, t :: ts, f⟩ = .ok t ⟨i + 1, ts, f⟩ := advance_at (by rw [h]; exact hk)
  simp [close, h, ha]

theorem literal_at {read : Token → Int → Except SyntaxError α} {a : α} (h : t.kind ≠ .finish) (hr : read t i = .ok a) :
    literal S read ⟨i, t :: ts, f⟩ = .ok (a, t) ⟨i + 1, ts, f⟩ := by
  simp [literal, hr, next_cons h]

theorem consume_refuses {s : State} (h : (s.current S).kind ≠ k) :
    consume S k s = .error (s.refusal S (.single k)) s := if_neg h

theorem close_refuses {s : State} (h : (s.current S).kind ≠ k) :
    close S k s = .error (s.refusal S (s.follow ∪ .single k)) s := if_neg h

end LambdaSyntax.Parse
