/-
  LambdaSyntax.Proofs.Calls — what a session keeps under every run of calls.

  Every call is answered, so no token is looked up that is not there, no level is left that
  was not entered and no repetition runs out of rounds (`call_moves`). Where a call is a step
  of a session, it is answered as the step is (`step_called`). Both hold of any session that
  stands at a token, and every call leaves it at one, so they hold after every run of calls
  (`calls_keep`).

  A call gives its routine the levels that the limit leaves. Any number that is `Enough` would
  do (`tier_answered`, `root_answered`).
-/

import LambdaSyntax.Proofs.Mirrors

namespace LambdaSyntax.Parse.Counted

open Session

variable {α : Type} {n : Nat} {s s₀ s' : Session} {c : Call}

/-! ## What a call may change -/

/-- The index that a call starts from. -/
def Call.origin : Call → Session → Nat
  | .step (.read _), _ => 0
  | _, s => s.current

/-- The depth behind a call at a depth. -/
def Call.depthAfter : Call → Nat → Nat
  | .step (.read _), _ => 0
  | .step .enter, d => d + 1
  | _, d => d

/-- `s'` is a session behind the call `c` at `s`. -/
structure Moves (c : Call) (s s' : Session) : Prop where
  stream : s'.stream = s.stream
  limit : s'.limit = s.limit
  inRange : s'.current < s'.stream.size
  forward : c.origin s ≤ s'.current
  ends : ∀ i, c.origin s ≤ i → (s.stream.tokenAt i).kind = .finish → s'.current ≤ i
  depth : s'.depth = c.depthAfter s.depth

/-- A call comes from `s` to `s₀` at once, without passing a token, and then goes on from there. -/
theorem Moves.of_reaches (h : s₀.Reaches s') (h₀ : s₀.InRange) (hstream : s₀.stream = s.stream)
    (hlimit : s₀.limit = s.limit) (hcurrent : s₀.current = c.origin s)
    (hdepth : s₀.depth = c.depthAfter s.depth) : Moves c s s' where
  stream := h.stream.trans hstream
  limit := h.limit.trans hlimit
  inRange := h.inRange h₀
  forward := hcurrent ▸ h.forward
  ends := hcurrent ▸ hstream ▸ h.ends
  depth := h.depth.trans hdepth

/-! ## Answers -/

theorem Kept.settle {x : EStateM.Result Failure Session α} (h : Kept s x) (answer : α → Answer) :
    ∃ a s', settle answer x = some (a, s') ∧ s.Reaches s' := by
  cases h with
  | ok h => exact ⟨_, _, rfl, h⟩
  | refused h => exact ⟨_, _, rfl, h⟩

theorem settle_ok {x : EStateM.Result Failure Session α} {a : α} (h : x = .ok a s') (answer : α → Answer) :
    settle answer x = some (answer a, s') := by
  rw [h]
  rfl

theorem settle_refused {x : EStateM.Result Failure Session α} {e : SyntaxError} (h : x = .error (.refused e) s')
    (answer : α → Answer) : settle answer x = some (.error e, s') := by
  rw [h]
  rfl

theorem Matched.settle {x : EStateM.Result Failure Session Marked} {p : Production Marked}
    (h : Matched s x (p s.state)) : settle .tree x = some (s.perform p) ∧ s.Reaches (s.perform p).2 := by
  unfold perform
  generalize p s.state = y at h
  cases h with
  | ok h =>
    simp only [h.restored]
    exact ⟨rfl, h⟩
  | refused h =>
    simp only [h.restored]
    exact ⟨rfl, h⟩

/-! ## Steps -/

/-- A session that starts over. -/
def fresh (s : Session) : Session := { s with current := 0, depth := 0, follow := ∅ }

def deeper (s : Session) : Session := { s with depth := s.depth + 1 }

theorem inRange_fresh (s : Session) : (fresh s).InRange := by
  show 0 < s.stream.size
  rw [Stream.size_eq]
  omega

/-- The limit leaves no more than `n` levels, or there are fewer than `n` tokens before the end. -/
def Enough (s : Session) (n : Nat) : Prop := levels s.limit s.depth ≤ n ∨ s.ahead < n

theorem enough_levels (s : Session) : Enough s (levels s.limit s.depth) := .inl (Nat.le_refl _)

theorem Enough.bound (h : Enough s n) : levels s.setting.limit s.depth ≤ n ∨ s.ahead + 1 ≤ n := h

theorem stands (hs : s.InRange) : Stands s.setting s.depth (s.ahead + 1) s := ⟨rfl, rfl, hs, Nat.lt_succ_self _⟩

theorem tier_answered (hs : s.InRange) (h : Enough s n) (t : Tier) :
    settle .tree (tier n t s) = some (s.step (.tier t)) ∧ s.Reaches (s.step (.tier t)).2 :=
  (tier_mirrors (stands hs).closing h.bound t s (stands hs)).settle

theorem root_answered (h : Enough (fresh s) n) (g : Goal) :
    settle .tree (root n g s) = some (s.step (.read g)) ∧ (fresh s).Reaches (s.step (.read g)).2 := by
  have hs : Stands s.setting 0 ((fresh s).ahead + 1) (fresh s) := stands (inRange_fresh s)
  have hr : reset s = .ok () (fresh s) := rfl
  have hm : Matched (fresh s) (root n g s) (Parse.root s.setting (levels s.limit 0) g (fresh s).state) := by
    unfold root
    rw [bind_ok hr]
    exact (goal_mirrors hs.closing h.bound g).bind (fun _ => mirrors_close _ (mirrors_pure _)) _ hs
  exact hm.settle

/-- A step is answered alike when it is called. -/
theorem step_called (hs : s.InRange) (x : Session.Step) :
    call s (.step x) = some (s.step x) ∧ Moves (.step x) s (s.step x).2 := by
  -- the answer is found out first, and holds of the step and of the call
  have called {x : Session.Step} {a : Answer} {s' : Session} (hstep : s.step x = (a, s'))
      (hcall : call s (.step x) = some (a, s')) (hm : Moves (.step x) s s') :
      call s (.step x) = some (s.step x) ∧ Moves (.step x) s (s.step x).2 := by
    rw [hstep]
    exact ⟨hcall, hm⟩
  cases x with
  | read g =>
    obtain ⟨hcall, hreach⟩ := root_answered (enough_levels (fresh s)) g
    exact called rfl hcall (.of_reaches hreach (inRange_fresh s) rfl rfl rfl rfl)
  | tier t =>
    obtain ⟨hcall, hreach⟩ := tier_answered hs (enough_levels s) t
    exact called rfl hcall (.of_reaches hreach hs rfl rfl rfl rfl)
  | advance =>
    exact called rfl (settle_ok (advance_eq hs) _) (.of_reaches (reaches_advance s) hs rfl rfl rfl rfl)
  | peek => exact called rfl (settle_ok (peek_eq hs) _) (.of_reaches (.refl s) hs rfl rfl rfl rfl)
  | previous => exact called rfl (settle_ok (previous_eq hs) _) (.of_reaches (.refl s) hs rfl rfl rfl rfl)
  | consume k also =>
    have hc := consume_eq hs k also
    by_cases hk : s.peek.kind = k
    · rw [if_pos hk] at hc
      exact called (if_pos hk) (settle_ok hc _) (.of_reaches (reaches_advance s) hs rfl rfl rfl rfl)
    · rw [if_neg hk] at hc
      exact called (if_neg hk) (settle_refused hc _) (.of_reaches (.refl s) hs rfl rfl rfl rfl)
  | pass k =>
    have hp := pass_eq hs k
    by_cases hk : s.peek.kind = k
    · rw [if_pos hk] at hp
      exact called (if_pos hk) (settle_ok hp _) (.of_reaches (reaches_advance s) hs rfl rfl rfl rfl)
    · rw [if_neg hk] at hp
      exact called (if_neg hk) (settle_ok hp _) (.of_reaches (.refl s) hs rfl rfl rfl rfl)
  | check k => exact called rfl (settle_ok (check_eq hs k) _) (.of_reaches (.refl s) hs rfl rfl rfl rfl)
  | atEnd => exact called rfl (settle_ok (check_eq hs .finish) _) (.of_reaches (.refl s) hs rfl rfl rfl rfl)
  | enter =>
    have he := enter_eq hs
    by_cases hl : s.limit < (s.depth + 1 : Nat)
    · rw [if_pos hl] at he
      exact called (if_pos hl) (settle_refused he _) (.of_reaches (.refl (deeper s)) hs rfl rfl rfl rfl)
    · rw [if_neg hl] at he
      exact called (if_neg hl) (settle_ok he _) (.of_reaches (.refl (deeper s)) hs rfl rfl rfl rfl)

/-! ## Runs -/

theorem call_moves (hs : s.InRange) (c : Call) : ∃ a s', call s c = some (a, s') ∧ Moves c s s' := by
  cases c with
  | step x => exact ⟨_, _, step_called hs x⟩
  | branch b =>
    obtain ⟨a, s', hcall, hreach⟩ := (branch_kept (enough_levels s).bound (stands hs) b).settle .tree
    exact ⟨a, s', hcall, .of_reaches hreach hs rfl rfl rfl rfl⟩

theorem calls_inRange (hs : s.InRange) (cs : List Call) :
    ∃ s', calls s cs = some s' ∧ s'.stream = s.stream ∧ s'.InRange := by
  induction cs generalizing s with
  | nil => exact ⟨s, rfl, rfl, hs⟩
  | cons c cs ih =>
    obtain ⟨a, s₁, hcall, hmoves⟩ := call_moves hs c
    obtain ⟨s', hcalls, hstream, hin⟩ := ih hmoves.inRange
    refine ⟨s', ?_, hstream.trans hmoves.stream, hin⟩
    unfold calls
    rw [hcall]
    exact hcalls

/-- Whatever has been called, the tokens are those that the session started with, with their
    end; the session stands at one of them; and whatever is called next is answered, moves
    the session as `Moves` says, and is answered as the session's own step if it is one. -/
theorem calls_keep (ts : List Token) (limit : Int) (cs : List Call) :
    ∃ s, calls (start (.ofTokens ts) limit) cs = some s ∧ s.stream = .ofTokens ts ∧
      s.stream.tokens.getLast?.map Token.kind = some .finish ∧ s.current < s.stream.tokens.length ∧
      (∀ c, ∃ a s', call s c = some (a, s') ∧ Moves c s s') ∧ ∀ x, call s (.step x) = some (s.step x) := by
  have h₀ : (start (.ofTokens ts) limit).InRange := inRange_fresh (start (.ofTokens ts) limit)
  obtain ⟨s, hcalls, hstream, hs⟩ := calls_inRange h₀ cs
  refine ⟨s, hcalls, hstream, ?_, hs, call_moves hs, fun x => (step_called hs x).1⟩
  rw [Stream.tokens, List.getLast?_concat, Option.map_some, s.stream.closing_kind]

/-- Behind an end in the middle stand tokens that no construct and no step gets to. -/
example :
    let x : Token := ⟨.identifier, "x", .none, default⟩
    (calls (start (.ofTokens [x, .finish default, x]) 1)
      [.step .enter, .step (.tier .application), .branch .conditional, .branch .name, .step .advance]).map
        (fun s => (s.current, s.depth)) = some (1, 1) := by decide

end LambdaSyntax.Parse.Counted
