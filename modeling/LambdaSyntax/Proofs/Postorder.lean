/-
  LambdaSyntax.Proofs.Postorder — when a fold calls its function, and with what.

  A fold that keeps its own stack is the recursive fold, whatever effects its function has, and its
  stack of results ends with one result (`Fold`). Here the function may fail and has no other
  effect. `logged` writes down each of its calls, with the node and the results it is given.

  `Traced combine nodes calls r` says what the log holds when the nodes are to be worked off in this
  order and `r` comes of it: a call for each node, which gets the results of the node's children, up
  to the first that fails. It is kept when one computation follows another (`Traced.append`), so a
  whole fold is traced along the nodes of its tree, children before their parent
  (`recFold_logs`, `foldM_recursive`).
-/

import LambdaSyntax.Proofs.Fold

namespace LambdaSyntax.Tree

variable {σ α β ε : Type}

/-! ## Nodes in order -/

/-- The nodes of a tree, children before their parent and from left to right. -/
def postorder (t : Tree σ) : List (Tree σ) :=
  match t with
  | var .. | literal .. | int _ | bool _ => [t]
  | arith _ l r _ | compare _ l r _ | apply l r _ | arrow l r _ => postorder l ++ postorder r ++ [t]
  | cond a b c _ | func _ a b c _ => postorder a ++ postorder b ++ postorder c ++ [t]

theorem postorder_eq (t : Tree σ) : t.postorder = t.children.flatMap postorder ++ [t] := by
  cases t <;> simp [postorder, children]

/-! ## Calls -/

structure Call (σ β : Type) where
  node : Tree σ
  parts : List β

/-- What comes of a computation that leaves this log. -/
def answer (calls : List (Call σ β)) : Except ε α → EStateM.Result ε (List (Call σ β)) α
  | .ok a => .ok a calls
  | .error e => .error e calls

/-- The function with a log of its calls, which is kept where the function fails. -/
def logged (combine : Tree σ → List β → Except ε β) (t : Tree σ) (parts : List β) : EStateM ε (List (Call σ β)) β :=
  fun calls => answer (calls ++ [⟨t, parts⟩]) (combine t parts)

structure Traced (combine : Tree σ → List β → Except ε β) (nodes : List (Tree σ)) (calls : List (Call σ β))
    (r : Except ε α) : Prop where
  /-- Every call gets the results of the node's children in their order. -/
  parts : ∀ c ∈ calls, c.node.children.map (recFold combine) = c.parts.map Except.ok
  /-- If nothing fails, every node had its call, in this order. -/
  ok {a : α} : r = .ok a → calls.map Call.node = nodes ∧ ∀ c ∈ calls, ∃ b, combine c.node c.parts = .ok b
  /-- If something fails, that is the last call, and the nodes up to there had theirs. -/
  error {e : ε} : r = .error e → ∃ before c rest, calls = before ++ [c] ∧ nodes = calls.map Call.node ++ rest ∧
    (∀ d ∈ before, ∃ b, combine d.node d.parts = .ok b) ∧ combine c.node c.parts = .error e

section

variable {γ : Type} {combine : Tree σ → List β → Except ε β} {us vs : List (Tree σ)} {calls calls' : List (Call σ β)}

theorem Traced.nil (a : α) : Traced combine [] [] (.ok a : Except ε α) :=
  ⟨by simp, fun _ => ⟨rfl, by simp⟩, nofun⟩

theorem Traced.single {t : Tree σ} {parts : List β} (h : t.children.map (recFold combine) = parts.map Except.ok) :
    Traced combine [t] [⟨t, parts⟩] (combine t parts) := by
  refine ⟨by simpa using h, fun {b} hb => ⟨rfl, by simp [hb]⟩, fun {e} he => ?_⟩
  exact ⟨[], _, [], rfl, rfl, by simp, he⟩

/-- After a failure there are no more calls. -/
theorem Traced.stop {e : ε} (h : Traced combine us calls (.error e : Except ε α)) (vs : List (Tree σ)) :
    Traced combine (us ++ vs) calls (.error e : Except ε γ) := by
  refine ⟨h.parts, nofun, fun {e'} he => ?_⟩
  obtain rfl := Except.error.inj he
  obtain ⟨before, c, rest, hcalls, hnodes, hbefore, hc⟩ := h.error rfl
  exact ⟨before, c, rest ++ vs, hcalls, by rw [hnodes, List.append_assoc], hbefore, hc⟩

theorem Traced.append {a : α} {r : Except ε γ} (h : Traced combine us calls (.ok a : Except ε α))
    (h' : Traced combine vs calls' r) : Traced combine (us ++ vs) (calls ++ calls') r := by
  obtain ⟨hnodes, hok⟩ := h.ok rfl
  refine ⟨?_, fun {b} hb => ?_, fun {e} he => ?_⟩
  · rw [List.forall_mem_append]
    exact ⟨h.parts, h'.parts⟩
  · obtain ⟨hnodes', hok'⟩ := h'.ok hb
    rw [List.map_append, hnodes, hnodes', List.forall_mem_append]
    exact ⟨rfl, hok, hok'⟩
  · obtain ⟨before, c, rest, rfl, rfl, hbefore, hc⟩ := h'.error he
    refine ⟨calls ++ before, c, rest, by simp, by simp [hnodes], ?_, hc⟩
    rw [List.forall_mem_append]
    exact ⟨hok, hbefore⟩

/-! ## Computations with a log -/

/-- `q` does what `p` does and adds to its log a trace of the nodes. -/
def Logs (combine : Tree σ → List β → Except ε β) (nodes : List (Tree σ)) (p : Except ε α)
    (q : EStateM ε (List (Call σ β)) α) : Prop :=
  ∀ log, ∃ calls, Traced combine nodes calls p ∧ q log = answer (log ++ calls) p

theorem Logs.pure (a : α) : Logs combine [] (pure a) (pure a) :=
  fun log => ⟨[], .nil a, by rw [List.append_nil]; rfl⟩

theorem Logs.bind {p : Except ε α} {q : EStateM ε (List (Call σ β)) α} {f : α → Except ε γ}
    {g : α → EStateM ε (List (Call σ β)) γ} (h : Logs combine us p q)
    (hf : ∀ a, p = .ok a → Logs combine vs (f a) (g a)) : Logs combine (us ++ vs) (p >>= f) (q >>= g) := by
  intro log
  obtain ⟨calls, htraced, hq⟩ := h log
  cases p with
  | error e =>
    refine ⟨calls, htraced.stop vs, ?_⟩
    change EStateM.bind q g log = answer (log ++ calls) (.error e)
    rw [EStateM.bind, hq]
    rfl
  | ok a =>
    obtain ⟨calls', htraced', hg⟩ := hf a rfl (log ++ calls)
    refine ⟨calls ++ calls', htraced.append htraced', ?_⟩
    change EStateM.bind q g log = answer (log ++ (calls ++ calls')) (f a)
    rw [EStateM.bind, hq, ← List.append_assoc]
    exact hg

theorem Logs.call {t : Tree σ} {parts : List β} (h : t.children.map (recFold combine) = parts.map Except.ok) :
    Logs combine [t] (combine t parts) (logged combine t parts) :=
  fun _ => ⟨_, .single h, rfl⟩

theorem Logs.mapM {ts : List (Tree σ)}
    (h : ∀ t ∈ ts, Logs combine t.postorder (recFold combine t) (recFold (logged combine) t)) :
    Logs combine (ts.flatMap postorder) (ts.mapM (recFold combine)) (ts.mapM (recFold (logged combine))) := by
  induction ts with
  | nil => exact .pure []
  | cons t ts ih =>
    obtain ⟨ht, hts⟩ := List.forall_mem_cons.1 h
    rw [List.flatMap_cons, List.mapM_cons, List.mapM_cons]
    refine ht.bind fun b _ => ?_
    rw [← List.append_nil (ts.flatMap postorder)]
    exact (ih hts).bind fun bs _ => .pure (b :: bs)

theorem map_eq_of_mapM {f : α → Except ε γ} {as : List α} {bs : List γ} (h : as.mapM f = .ok bs) :
    as.map f = bs.map Except.ok := by
  induction as generalizing bs with
  | nil =>
    obtain rfl := Except.ok.inj h
    rfl
  | cons a as ih =>
    rw [List.mapM_cons] at h
    cases ha : f a with
    | error e => simp [ha, bind, Except.bind] at h
    | ok c =>
      cases has : as.mapM f with
      | error e => simp [ha, has, bind, Except.bind] at h
      | ok cs =>
        obtain rfl : c :: cs = bs := by simpa [ha, has, bind, Except.bind, Pure.pure, Except.pure] using h
        rw [List.map_cons, List.map_cons, ha, ih has]

/-- The calls at a node follow those at its children. -/
theorem Logs.node {t : Tree σ}
    (h : ∀ u ∈ t.children, Logs combine u.postorder (recFold combine u) (recFold (logged combine) u)) :
    Logs combine t.postorder (recFold combine t) (recFold (logged combine) t) := by
  rw [postorder_eq, recFold_eq combine, recFold_eq (logged combine)]
  exact (Logs.mapM h).bind fun parts hparts => .call (map_eq_of_mapM hparts)

theorem recFold_logs (combine : Tree σ → List β → Except ε β) (t : Tree σ) :
    Logs combine t.postorder (recFold combine t) (recFold (logged combine) t) := by
  induction t with
  | var | literal | int | bool => exact .node (by simp [children])
  | arith _ _ _ _ ihl ihr | compare _ _ _ _ ihl ihr | apply _ _ _ ihl ihr | arrow _ _ _ ihl ihr =>
    exact .node (by simp [children, ihl, ihr])
  | cond _ _ _ _ iha ihb ihc | func _ _ _ _ _ iha ihb ihc => exact .node (by simp [children, iha, ihb, ihc])

end

/-- A fold is the recursive fold, with any effects, and leaves one result on its stack. If all that its function
    does is fail, it is called for the nodes in postorder, each with the results of its children, and the first
    call that fails is the last one and gives the error. -/
theorem foldM_recursive (t : Tree σ) :
    (∀ {m : Type → Type} [Monad m] [LawfulMonad m] (combine : Tree σ → List β → m β),
      foldM combine t = recFold combine t ∧
      recFold combine t = t.children.mapM (recFold combine) >>= combine t ∧
      foldStack combine [.enter t] [] = recFold combine t >>= fun b => pure [b]) ∧
    ∀ {ε : Type} (combine : Tree σ → List β → Except ε β),
      ∃ calls, Traced combine t.postorder calls (foldM combine t) ∧ foldM (logged combine) t [] = answer calls (foldM combine t) := by
  refine ⟨fun {m} _ _ combine => ⟨foldM_eq combine t, recFold_eq combine t, ?_⟩, fun {ε} combine => ?_⟩
  · rw [foldStack_enter]
    simp only [foldStack]
  · obtain ⟨calls, htraced, hlog⟩ := recFold_logs combine t []
    rw [foldM_eq, foldM_eq]
    exact ⟨calls, htraced, hlog⟩

/-- The size of a tree without variables. -/
private def closedSize : Tree Unit → List Nat → Except String Nat
  | var x _, _ => .error x
  | _, sizes => .ok (sizes.foldl Nat.add 1)

theorem foldM_recursive_variable : ∃ t : Tree Unit, t = apply (arith .add (int ()) (var "x" ()) ()) (var "y" ()) () ∧
    LawfulMonad (Except String) ∧ recFold closedSize t = .error "x" ∧ foldM closedSize t = recFold closedSize t ∧
    recFold closedSize t = t.children.mapM (recFold closedSize) >>= closedSize t ∧
    foldStack closedSize [.enter t] [] = recFold closedSize t >>= fun b => pure [b] :=
  ⟨_, rfl, inferInstance, rfl, (foldM_recursive _).1 closedSize⟩

end LambdaSyntax.Tree
