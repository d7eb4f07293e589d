/-
  LambdaSyntax.Proofs.Correctness — a list of tokens is read exactly when the grammar has it.

  A whole reading is a construct of the goal's tier and then the end. `Outcome` lists what
  may come of it in terms of `Reads` and `Stops`: one of these is the outcome
  (`readStream_outcome`), and no other is (`Outcome.readStream_eq`).

  With the two directions of `Reads` the trees that come out are those that the grammar
  derives from the tokens before the first `finish` (`readTokens_ok_iff`).
-/

import LambdaSyntax.Proofs.Replay

namespace LambdaSyntax

/-- The tier that is read for a goal. -/
def Goal.tier : Goal → Tier
  | .expression => .expression
  | .type => .type

namespace Parse

variable {S : Setting} {n : Nat} {g : Goal}

theorem goalProduction_eq (S : Setting) (n : Nat) (g : Goal) : goalProduction S n g = tierProduction S n g.tier := by
  cases g <;> rfl

theorem remembers_tier (g : Goal) : remembers g.tier := by cases g <;> rfl

/-! ## The tokens before the end -/

theorem takeWhile_append_finish {ts us : List Token} {t : Token} (h : t.kind = .finish) :
    (ts ++ t :: us).takeWhile (·.kind ≠ .finish) = ts.takeWhile (·.kind ≠ .finish) := by
  induction ts with
  | nil => simp [h]
  | cons x ts ih => simp only [List.cons_append, List.takeWhile_cons, ih]

theorem takeWhile_body (ts : List Token) :
    (Stream.ofTokens ts).body.takeWhile (·.kind ≠ .finish) = ts.takeWhile (·.kind ≠ .finish) := by
  unfold Stream.ofTokens
  split
  · rename_i t hlast
    split
    · rename_i hk
      obtain ⟨us, rfl⟩ := List.getLast?_eq_some_iff.mp hlast
      rw [takeWhile_append_finish hk, List.dropLast_concat]
    · rfl
  · rfl

/-- The tokens that were passed are those before the end, when the end is reached. -/
theorem takeWhile_passed {ts rest : List Token} (h : ∀ t ∈ ts, Passable t)
    (hr : (rest.headD S.closing).kind = .finish) : (ts ++ rest).takeWhile (·.kind ≠ .finish) = ts := by
  have hts : ∀ t ∈ ts, decide (t.kind ≠ .finish) = true := fun t ht => decide_eq_true (h t ht).1
  rw [List.takeWhile_append_of_pos hts]
  cases rest with
  | nil => simp
  | cons t rest =>
    have hk : t.kind = .finish := hr
    simp [hk]

theorem headD_dropWhile (hS : S.closing.kind = .finish) (ts : List Token) :
    ((ts.dropWhile (·.kind ≠ .finish)).headD S.closing).kind = .finish := by
  cases hd : ts.dropWhile (·.kind ≠ .finish) with
  | nil => exact hS
  | cons t us =>
    have := List.head?_dropWhile_not (fun t : Token => decide (t.kind ≠ .finish)) ts
    rw [hd] at this
    simpa using this

/-! ## A construct and then the end -/

theorem root_explained (hS : S.closing.kind = .finish) (n : Nat) (g : Goal) (s₀ : State) :
    Ends (fun u s => ∃ ts f, Passed s₀ ts s ∧ Reads g.tier n ts u f ∧ (s.current S).kind = .finish)
      (fun e _ => Faults S g.tier n s₀ e ∨ ∃ ts u f s, Passed s₀ ts s ∧ Reads g.tier n ts u f ∧
        Raises S (s.current S) s.index (.refused (f ∪ .single .finish)) e)
      (root S n g s₀) := by
  unfold root
  rw [goalProduction_eq]
  refine (tierProduction_explained hS n g.tier s₀).bind (fun e _ h => .inl h) ?_
  intro u s hu
  obtain ⟨ts, f, hp, hr, hf, hs⟩ := hu
  by_cases hk : (s.current S).kind = .finish
  · have hclose : close S .finish s = .ok (s.current S) s.next := if_pos hk
    have hnext : s.next = s := by
      obtain ⟨i, rest, g⟩ := s
      cases rest with
      | nil => rfl
      | cons t rest => exact if_pos hk
    rw [bind_ok hclose, hnext]
    exact ⟨ts, f, hp, hr, hk⟩
  · rw [bind_error (close_refuses hk), hs (remembers_tier g)]
    exact .inr ⟨ts, u, f, s, hp, hr, raises_refusal (by simp [hf, hk])⟩

variable {us rest : List Token} {u : Marked} {f h₀ : KindSet} {r : Reason} {e : SyntaxError} {i : Nat}

theorem root_run (hS : S.closing.kind = .finish) (h : Reads g.tier n us u f)
    (hk : (rest.headD S.closing).kind = .finish) : ∃ s, root S n g ⟨i, us ++ rest, h₀⟩ = .ok u s := by
  have hf : (rest.headD S.closing).kind ∉ f := by
    rw [hk]
    exact h.closer (by decide)
  obtain ⟨g', hrun, -⟩ := reads_run hS h i rest h₀ hf
  have hclose : close S .finish ⟨i + us.length, rest, g'⟩ = advance S ⟨i + us.length, rest, g'⟩ := if_pos hk
  refine ⟨State.next ⟨i + us.length, rest, g'⟩, ?_⟩
  unfold root
  rw [goalProduction_eq, bind_ok hrun, bind_ok (hclose.trans rfl)]
  rfl

theorem root_stops (hS : S.closing.kind = .finish) (h : Stops g.tier n us r)
    (he : Raises S (rest.headD S.closing) (i + us.length) r e) : ∃ s, root S n g ⟨i, us ++ rest, h₀⟩ = .error e s := by
  unfold root
  rw [goalProduction_eq]
  exact (stops_run hS h).bind _ i rest h₀ e he

theorem root_refuses (hS : S.closing.kind = .finish) (h : Reads g.tier n us u f)
    (he : Raises S (rest.headD S.closing) (i + us.length) (.refused (f ∪ .single .finish)) e) :
    ∃ s, root S n g ⟨i, us ++ rest, h₀⟩ = .error e s := by
  unfold root
  rw [goalProduction_eq]
  exact (reads_run hS h).fails (remembers_tier g) _ i rest h₀ e he

/-! ## How a list of tokens comes to be read -/

theorem readStream_ok {s : Stream} {limit : Int} :
    readStream n limit g s = .ok u ↔ ∃ s', root (settingOf s limit) n g (initial s) = .ok u s' := by
  unfold readStream
  cases root (settingOf s limit) n g (initial s) <;> simp

theorem readStream_error {s : Stream} {limit : Int} :
    readStream n limit g s = .error e ↔ ∃ s', root (settingOf s limit) n g (initial s) = .error e s' := by
  unfold readStream
  cases root (settingOf s limit) n g (initial s) <;> simp

/-- What comes of reading the tokens `body` and the end: all of it is a construct, or a
    construct stops short of its end, or it ends before they do. -/
inductive Outcome (S : Setting) (g : Goal) (n : Nat) (body : List Token) : Except SyntaxError Marked → Prop
  | read {us rest : List Token} {u : Marked} {f : KindSet} : body = us ++ rest → Reads g.tier n us u f →
      (rest.headD S.closing).kind = .finish → Outcome S g n body (.ok u)
  | stopped {us rest : List Token} {r : Reason} {e : SyntaxError} : body = us ++ rest → Stops g.tier n us r →
      Raises S (rest.headD S.closing) us.length r e → Outcome S g n body (.error e)
  | leftOver {us rest : List Token} {u : Marked} {f : KindSet} {e : SyntaxError} : body = us ++ rest →
      Reads g.tier n us u f → Raises S (rest.headD S.closing) us.length (.refused (f ∪ .single .finish)) e →
      Outcome S g n body (.error e)

theorem readStream_outcome (n : Nat) (g : Goal) (limit : Int) (ts : List Token) :
    Outcome (settingOf (.ofTokens ts) limit) g n (Stream.ofTokens ts).body
      (readStream n limit g (.ofTokens ts)) := by
  have hS : (settingOf (.ofTokens ts) limit).closing.kind = .finish := (Stream.ofTokens ts).closing_kind
  have hroot := root_explained hS n g (initial (.ofTokens ts))
  have hindex : ∀ {us s}, Passed (initial (.ofTokens ts)) us s → s.index = us.length :=
    fun hp => hp.index.trans (Nat.zero_add _)
  cases hrun : root (settingOf (.ofTokens ts) limit) n g (initial (.ofTokens ts)) with
  | ok u s =>
    rw [hrun] at hroot
    obtain ⟨us, f, hp, hr, hk⟩ := hroot
    rw [readStream_ok.mpr ⟨s, hrun⟩]
    exact .read hp.rest hr hk
  | error e s =>
    rw [hrun] at hroot
    rw [readStream_error.mpr ⟨s, hrun⟩]
    rcases hroot with ⟨us, r, s', hp, hstop, hr⟩ | ⟨us, u, f, s', hp, hread, hr⟩
    · rw [hindex hp] at hr
      exact .stopped hp.rest hstop hr
    · rw [hindex hp] at hr
      exact .leftOver hp.rest hread hr

/-- There is one outcome. -/
theorem Outcome.readStream_eq {limit : Int} {ts : List Token} {x : Except SyntaxError Marked}
    (h : Outcome (settingOf (.ofTokens ts) limit) g n (Stream.ofTokens ts).body x) :
    readStream n limit g (.ofTokens ts) = x := by
  have hS : (settingOf (.ofTokens ts) limit).closing.kind = .finish := (Stream.ofTokens ts).closing_kind
  cases h with
  | read hb hr hk =>
    rw [readStream_ok, initial, hb]
    exact root_run hS hr hk
  | stopped hb hs he =>
    rw [readStream_error, initial, hb]
    exact root_stops hS hs (by rwa [Nat.zero_add])
  | leftOver hb hr he =>
    rw [readStream_error, initial, hb]
    exact root_refuses hS hr (by rwa [Nat.zero_add])

theorem readTokens_eq_readStream (g : Goal) (limit : Int) (ts : List Token) :
    readTokens g limit ts = readStream limit.toNat limit g (.ofTokens ts) := by rw [readTokens, levels, Int.sub_zero]

theorem readTokens_outcome (g : Goal) (limit : Int) (ts : List Token) :
    Outcome (settingOf (.ofTokens ts) limit) g limit.toNat (Stream.ofTokens ts).body (readTokens g limit ts) := by
  rw [readTokens_eq_readStream]
  exact readStream_outcome _ g limit ts

theorem Outcome.readTokens_eq {limit : Int} {ts : List Token} {x : Except SyntaxError Marked}
    (h : Outcome (settingOf (.ofTokens ts) limit) g limit.toNat (Stream.ofTokens ts).body x) :
    readTokens g limit ts = x := by
  rw [readTokens_eq_readStream]
  exact h.readStream_eq

end Parse

open Parse Grammar

theorem derives_of_readTokens {g : Goal} {limit : Int} {ts : List Token} {u : Tree Span}
    (h : readTokens g limit ts = .ok u) :
    Derives g.tier limit.toNat (ts.takeWhile (·.kind ≠ .finish)) u.bare := by
  have hout := readTokens_outcome g limit ts
  rw [h] at hout
  cases hout with
  | read hb hr hk =>
    rw [← takeWhile_body, hb, takeWhile_passed hr.passable hk]
    exact hr.derives

theorem readTokens_of_derives {g : Goal} {limit : Int} {ts : List Token} {t : Tree Unit}
    (h : Derives g.tier limit.toNat (ts.takeWhile (·.kind ≠ .finish)) t) :
    ∃ u, readTokens g limit ts = .ok u ∧ u.bare = t := by
  have hS : (settingOf (.ofTokens ts) limit).closing.kind = .finish := (Stream.ofTokens ts).closing_kind
  rw [← takeWhile_body] at h
  obtain ⟨u, f, hr, hu⟩ := reads_of_derives h
  have hb : (Stream.ofTokens ts).body = _ := (List.takeWhile_append_dropWhile (p := (·.kind ≠ .finish))).symm
  exact ⟨u, Outcome.readTokens_eq (.read hb hr (headD_dropWhile hS _)), hu⟩

/-- The trees that are read are those that the grammar derives within the limit. -/
theorem readTokens_ok_iff (g : Goal) (limit : Int) (ts : List Token) (t : Tree Unit) :
    (∃ u, readTokens g limit ts = .ok u ∧ u.bare = t) ↔
      Derives g.tier limit.toNat (ts.takeWhile (·.kind ≠ .finish)) t := by
  constructor
  · intro h
    obtain ⟨u, hu, rfl⟩ := h
    exact derives_of_readTokens hu
  · exact readTokens_of_derives

end LambdaSyntax
