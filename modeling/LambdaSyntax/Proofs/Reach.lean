/-
  LambdaSyntax.Proofs.Reach — how far a construct may take a session.

  `Reaches s s'` says that `s'` lies over tokens that are no ends, with the depth back where it
  was. From a token of the stream it leads to a token of the stream.

  The same end stands before both (`Reaches.ahead`), so every token that is passed leaves one
  less before it. `Stands S d b s` says of a session that fewer than `b` tokens stand there.
-/

import LambdaSyntax.Parse.Session

namespace LambdaSyntax

/-! ## Tokens of a stream -/

namespace Stream

variable {s : Stream} {i : Nat}

theorem size_eq : s.size = s.body.length + 1 := by
  simp [size, tokens]

theorem getElem?_tokens (h : i < s.size) : s.tokens[i]? = some (s.tokenAt i) := by
  rw [size_eq] at h
  rw [tokens, tokenAt, List.headD_eq_head?_getD, List.head?_drop]
  rcases Nat.lt_or_ge i s.body.length with hi | hi
  · rw [List.getElem?_append_left hi, List.getElem?_eq_getElem hi]
    rfl
  · obtain rfl : i = s.body.length := by omega
    simp

theorem tokenAt_of_le (h : s.body.length ≤ i) : s.tokenAt i = s.closing := by
  rw [tokenAt, List.drop_eq_nil_of_le h]
  rfl

end Stream

namespace Parse

variable {S : Setting} {b d : Nat} {s s' s'' : Session}

/-! ## What is in reach -/

namespace Session

def InRange (s : Session) : Prop := s.current < s.stream.size

structure Reaches (s s' : Session) : Prop where
  stream : s'.stream = s.stream
  limit : s'.limit = s.limit
  depth : s'.depth = s.depth
  forward : s.current ≤ s'.current
  ends : ∀ i, s.current ≤ i → (s.stream.tokenAt i).kind = .finish → s'.current ≤ i

theorem Reaches.refl (s : Session) : s.Reaches s := ⟨rfl, rfl, rfl, Nat.le_refl _, fun _ h _ => h⟩

theorem Reaches.trans (h : s.Reaches s') (h' : s'.Reaches s'') : s.Reaches s'' where
  stream := h'.stream.trans h.stream
  limit := h'.limit.trans h.limit
  depth := h'.depth.trans h.depth
  forward := Nat.le_trans h.forward h'.forward
  ends i hi hk := h'.ends i (h.ends i hi hk) (by rw [h.stream]; exact hk)

/-- The closing token is an end, so a session never gets behind it. -/
theorem Reaches.inRange (h : s.Reaches s') (hs : s.InRange) : s'.InRange := by
  unfold InRange at *
  have hlast : s'.current ≤ s.stream.body.length := by
    refine h.ends _ (by rw [Stream.size_eq] at hs; omega) ?_
    rw [Stream.tokenAt_of_le (Nat.le_refl _)]
    exact s.stream.closing_kind
  rw [h.stream, Stream.size_eq]
  omega

theorem Reaches.setting (h : s.Reaches s') : s'.setting = s.setting := by
  simp [Session.setting, h.stream, h.limit]

theorem Reaches.follow (h : s.Reaches s') (f : KindSet) : s.Reaches { s' with follow := f } :=
  ⟨h.stream, h.limit, h.depth, h.forward, h.ends⟩

theorem Reaches.restored (h : s.Reaches s') : s.restored s'.state = s' := by
  obtain ⟨stream, limit, current, depth, f⟩ := s'
  obtain ⟨rfl, rfl, rfl, -, -⟩ := h
  rfl

/-! ## One token -/

theorem rest_length (s : Session) : s.state.rest.length = s.stream.body.length - s.current := List.length_drop

theorem rest_length_lt (h : s.InRange) : s.state.rest.length < s.stream.size - s.current := by
  unfold InRange at h
  rw [rest_length, Stream.size_eq] at *
  omega

theorem Reaches.rest_length_le (h : s.Reaches s') : s'.state.rest.length ≤ s.state.rest.length := by
  have := h.forward
  rw [rest_length, rest_length, h.stream]
  omega

theorem peek_of_rest_nil (h : s.state.rest = []) : s.peek.kind = .finish := by
  have hp : s.peek = s.stream.closing := by
    show s.state.rest.headD _ = _
    rw [h]
    rfl
  rw [hp]
  exact s.stream.closing_kind

theorem peek_of_rest_cons {t : Token} {ts : List Token} (h : s.state.rest = t :: ts) : s.peek = t := by
  show s.state.rest.headD _ = t
  rw [h]
  rfl

theorem next_of_finish (h : s.peek.kind = .finish) : s.state.next = s.state := by
  unfold State.next
  cases hr : s.state.rest with
  | nil => rfl
  | cons t ts =>
    rw [peek_of_rest_cons hr] at h
    simp [h]

theorem next_of_ne (h : s.peek.kind ≠ .finish) :
    s.state.next = ({ s with current := s.current + 1 } : Session).state := by
  unfold State.next
  cases hr : s.state.rest with
  | nil => exact absurd (peek_of_rest_nil hr) h
  | cons t ts =>
    rw [peek_of_rest_cons hr] at h
    have hd : s.stream.body.drop s.current = t :: ts := hr
    have htail : s.stream.body.drop (s.current + 1) = ts := by rw [← List.tail_drop, hd, List.tail_cons]
    simp [h, Session.state, htail]

theorem advance_of_finish (h : s.peek.kind = .finish) : s.advance = s := by
  rw [Session.advance, next_of_finish h]
  rfl

theorem advance_of_ne (h : s.peek.kind ≠ .finish) : s.advance = { s with current := s.current + 1 } := by
  rw [Session.advance, next_of_ne h]
  rfl

theorem state_advance (s : Session) : s.advance.state = s.state.next := by
  by_cases h : s.peek.kind = .finish
  · rw [advance_of_finish h, next_of_finish h]
  · rw [advance_of_ne h, next_of_ne h]

theorem previous_advance (h : s.peek.kind ≠ .finish) : s.advance.previous = s.peek := by
  rw [advance_of_ne h]
  rfl

theorem advance_rest_length_lt (h : s.peek.kind ≠ .finish) : s.advance.state.rest.length < s.state.rest.length := by
  have hne : s.state.rest ≠ [] := fun hr => h (peek_of_rest_nil hr)
  have hpos := List.length_pos_iff.mpr hne
  rw [advance_of_ne h, rest_length]
  rw [rest_length] at hpos ⊢
  show s.stream.body.length - (s.current + 1) < _
  omega

theorem reaches_advance (s : Session) : s.Reaches s.advance := by
  by_cases h : s.peek.kind = .finish
  · rw [advance_of_finish h]
    exact .refl s
  · rw [advance_of_ne h]
    refine ⟨rfl, rfl, rfl, Nat.le_succ _, ?_⟩
    intro i hi hk
    have hne : s.current ≠ i := by
      intro he
      rw [← he] at hk
      exact h hk
    show s.current + 1 ≤ i
    omega

/-! ## Up to the next end -/

/-- The number of tokens before the next end. -/
def ahead (s : Session) : Nat := s.state.rest.findIdx (·.kind = .finish)

theorem ahead_le (s : Session) : s.ahead ≤ s.state.rest.length := List.findIdx_le_length

theorem ahead_lt (h : s.InRange) : s.ahead < s.stream.size - s.current :=
  Nat.lt_of_le_of_lt s.ahead_le (rest_length_lt h)

theorem tokenAt_add (s : Session) (i : Nat) :
    s.stream.tokenAt (s.current + i) = s.state.rest[i]?.getD s.stream.closing := by
  rw [Stream.tokenAt, ← List.drop_drop, List.headD_eq_head?_getD, List.head?_drop]
  rfl

theorem tokenAt_ahead (s : Session) : (s.stream.tokenAt (s.current + s.ahead)).kind = .finish := by
  rw [tokenAt_add]
  by_cases h : s.ahead < s.state.rest.length
  · rw [List.getElem?_eq_getElem h]
    exact of_decide_eq_true (List.findIdx_getElem (w := h))
  · rw [List.getElem?_eq_none (Nat.not_lt.mp h)]
    exact s.stream.closing_kind

theorem ahead_le_of_finish {i : Nat} (hi : s.current ≤ i) (hk : (s.stream.tokenAt i).kind = .finish) :
    s.current + s.ahead ≤ i := by
  obtain ⟨j, rfl⟩ := Nat.exists_eq_add_of_le hi
  refine Nat.add_le_add_left (Nat.not_lt.mp fun hj => ?_) s.current
  have hlt : j < s.state.rest.length := Nat.lt_of_lt_of_le hj s.ahead_le
  rw [tokenAt_add, List.getElem?_eq_getElem hlt] at hk
  exact of_decide_eq_false (List.not_of_lt_findIdx hj) hk

/-- What is in reach has the same end before it. -/
theorem Reaches.ahead (h : s.Reaches s') : s'.current + s'.ahead = s.current + s.ahead := by
  have hend := s.tokenAt_ahead
  have hend' := s'.tokenAt_ahead
  have hle := h.ends _ (Nat.le_add_right _ _) hend
  rw [h.stream] at hend'
  rw [← h.stream] at hend
  refine Nat.le_antisymm (ahead_le_of_finish hle hend) (ahead_le_of_finish ?_ hend')
  exact Nat.le_trans h.forward (Nat.le_add_right _ _)

/-- Who has passed a token has fewer before that end. -/
theorem Reaches.ahead_lt (h : s.Reaches s') (hless : s'.state.rest.length < s.state.rest.length) :
    s'.ahead < s.ahead := by
  have hend := h.ahead
  rw [rest_length, rest_length, h.stream] at hless
  omega

/-- A session at a token of its stream, with the setting and the depth that it has there and
    fewer than `b` tokens before the next end. -/
structure Stands (S : Setting) (d b : Nat) (s : Session) : Prop where
  setting : s.setting = S
  depth : s.depth = d
  inRange : s.InRange
  near : s.ahead < b

theorem Stands.reaches (h : Stands S d b s) (hr : s.Reaches s') : Stands S d b s' := by
  refine ⟨hr.setting.trans h.setting, hr.depth.trans h.depth, hr.inRange h.inRange, ?_⟩
  have hnear := h.near
  have hforward := hr.forward
  have hend := hr.ahead
  omega

theorem Stands.wider (h : Stands S d b s) : Stands S d (b + 1) s :=
  ⟨h.setting, h.depth, h.inRange, Nat.lt_succ_of_lt h.near⟩

/-- A token that is passed is one less before the end. -/
theorem Stands.advance (h : Stands S d (b + 1) s) (hk : s.peek.kind ≠ .finish) : Stands S d b s.advance := by
  obtain ⟨hsetting, hdepth, hin, -⟩ := h.reaches (reaches_advance s)
  refine ⟨hsetting, hdepth, hin, ?_⟩
  have hnear := h.near
  have hend := (reaches_advance s).ahead
  have hcurrent : s.advance.current = s.current + 1 := by rw [advance_of_ne hk]
  omega

theorem Stands.current (h : Stands S d b s) : s.state.current S = s.peek := by
  rw [← h.setting]
  rfl

theorem Stands.closing (h : Stands S d b s) : S.closing.kind = .finish := by
  rw [← h.setting]
  exact s.stream.closing_kind

end Session

end Parse

end LambdaSyntax
