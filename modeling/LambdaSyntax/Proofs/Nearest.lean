/-
  LambdaSyntax.Proofs.Nearest — the corrections that are offered for a word are the nearest candidates.

  `IsNearest f k m candidates found` says of some of the candidates that they are the first `m` of those
  at a distance `f` of at most `k`, the nearest first. It speaks of candidates as often as they are
  listed: of equal ones, and of such as are equally near, those that are listed first are taken.

  Taking the candidates distance by distance (`ranked`) is the same as sorting those within reach by
  distance and leaving equally near ones as they were (`ranked_eq_mergeSort`), as only one list is
  sorted and has at each distance what `candidates` has there, in the order of `candidates`
  (`eq_of_sorted`).
-/

import LambdaSyntax.Hint.Spelling

namespace LambdaSyntax.Hint

variable {f : String → Nat} {k m n d : Nat} {c x y : String} {cs xs ys : List String}

structure IsNearest (f : String → Nat) (k m : Nat) (candidates found : List String) : Prop where
  occurs : ∀ c, found.count c ≤ candidates.count c
  within : ∀ c ∈ found, f c ≤ k
  length_eq : found.length = min m (candidates.countP fun c => f c ≤ k)
  ordered : found.Pairwise fun x y => f x ≤ f y
  /-- Of those at one distance the first ones are found, in their order. -/
  ties : ∀ d, found.filter (f · = d) <+: candidates.filter (f · = d)
  /-- A candidate that is nearer than one that is found is not left out anywhere. -/
  nearer : ∀ c, ∀ x ∈ found, f c < f x → found.count c = candidates.count c

/-- The candidates nearer than `n`, distance by distance. -/
def ranked (f : String → Nat) (cs : List String) (n : Nat) : List String :=
  (List.range n).flatMap fun d => cs.filter (f · = d)

theorem ranked_succ (f : String → Nat) (cs : List String) (n : Nat) :
    ranked f cs (n + 1) = ranked f cs n ++ cs.filter (f · = n) := by
  simp [ranked, List.range_succ]

theorem mem_at : x ∈ cs.filter (f · = d) ↔ x ∈ cs ∧ f x = d := by simp

theorem mem_ranked : x ∈ ranked f cs n ↔ x ∈ cs ∧ f x < n := by
  simp only [ranked, List.mem_flatMap, List.mem_range, List.mem_filter, decide_eq_true_eq]
  constructor
  · rintro ⟨d, hd, hx, rfl⟩
    exact ⟨hx, hd⟩
  · exact fun h => ⟨f x, h.2, h.1, rfl⟩

theorem ranked_ordered (f : String → Nat) (cs : List String) (n : Nat) :
    (ranked f cs n).Pairwise fun x y => f x ≤ f y := by
  induction n with
  | zero => exact .nil
  | succ n ih =>
    rw [ranked_succ]
    refine List.pairwise_append.mpr ⟨ih, ?_, ?_⟩
    · refine List.pairwise_of_forall_mem_list ?_
      intro x hx y hy
      have hxn : f x = n := (mem_at.mp hx).2
      have hyn : f y = n := (mem_at.mp hy).2
      omega
    · intro x hx y hy
      have hxn : f x < n := (mem_ranked.mp hx).2
      have hyn : f y = n := (mem_at.mp hy).2
      omega

/-- At each distance stands what the candidates have there. -/
theorem filter_ranked (f : String → Nat) (cs : List String) (n d : Nat) :
    (ranked f cs n).filter (f · = d) = (cs.filter (f · < n)).filter (f · = d) := by
  induction n with
  | zero => simp [ranked]
  | succ n ih =>
    rw [ranked_succ, List.filter_append, ih]
    simp only [List.filter_filter]
    by_cases hd : d = n
    · have hbelow : cs.filter (fun x => f x = d && f x < n) = [] := by
        simp only [List.filter_eq_nil_iff, Bool.and_eq_true, decide_eq_true_eq]
        omega
      rw [hbelow, List.nil_append]
      refine List.filter_congr ?_
      intro x _
      rw [← Bool.decide_and, ← Bool.decide_and, decide_eq_decide]
      omega
    · have hat : cs.filter (fun x => f x = d && f x = n) = [] := by
        simp only [List.filter_eq_nil_iff, Bool.and_eq_true, decide_eq_true_eq]
        omega
      rw [hat, List.append_nil]
      refine List.filter_congr ?_
      intro x _
      rw [← Bool.decide_and, ← Bool.decide_and, decide_eq_decide]
      omega

theorem mem_iff_of_filter (h : ∀ d, xs.filter (f · = d) = ys.filter (f · = d)) (x : String) : x ∈ xs ↔ x ∈ ys := by
  have hx := congrArg (x ∈ ·) (h (f x))
  simpa using hx

theorem head_nearest (h : (x :: xs).Pairwise fun x y => f x ≤ f y) (hy : y ∈ x :: xs) : f x ≤ f y := by
  rcases List.mem_cons.mp hy with rfl | hy
  · exact Nat.le_refl _
  · exact (List.pairwise_cons.mp h).1 y hy

/-- A list that is sorted by distance is settled by what it has at each distance. -/
theorem eq_of_sorted (hx : xs.Pairwise fun x y => f x ≤ f y) (hy : ys.Pairwise fun x y => f x ≤ f y)
    (h : ∀ d, xs.filter (f · = d) = ys.filter (f · = d)) : xs = ys := by
  have hmem := mem_iff_of_filter h
  induction xs generalizing ys with
  | nil => simpa [eq_comm, List.eq_nil_iff_forall_not_mem] using hmem
  | cons x xs ih =>
    cases ys with
    | nil => simpa using (hmem x).mp (by simp)
    | cons y ys =>
      -- both begin with what is nearest in them
      have hxy := head_nearest hx ((hmem y).mpr (by simp))
      have hyx := head_nearest hy ((hmem x).mp (by simp))
      have hfyx : f y = f x := by omega
      obtain ⟨rfl, -⟩ : x = y ∧ _ := by simpa [hfyx] using h (f x)
      have htail : ∀ d, xs.filter (f · = d) = ys.filter (f · = d) := by
        intro d
        have hd := h d
        by_cases hxd : f x = d <;> simpa [hxd] using hd
      exact congrArg (x :: ·) (ih hx.tail hy.tail htail (mem_iff_of_filter htail))

/-- Candidates that are equally near stay in their order when they are sorted by distance. -/
theorem filter_mergeSort (f : String → Nat) (cs : List String) (d : Nat) :
    (cs.mergeSort fun x y => f x ≤ f y).filter (f · = d) = cs.filter (f · = d) := by
  have hequal : (cs.filter (f · = d)).Pairwise fun x y => decide (f x ≤ f y) = true := by
    refine List.pairwise_of_forall_mem_list ?_
    intro x hx y hy
    simp [(mem_at.mp hx).2, (mem_at.mp hy).2]
  have hsub := (List.sublist_mergeSort (by simp; omega) (by simp; omega) hequal List.filter_sublist).filter (f · = d)
  simp only [List.filter_filter, Bool.and_self] at hsub
  have hperm := (List.mergeSort_perm cs fun x y => decide (f x ≤ f y)).filter (f · = d)
  exact (hsub.eq_of_length hperm.length_eq.symm).symm

theorem ranked_eq_mergeSort (f : String → Nat) (cs : List String) (n : Nat) :
    ranked f cs n = (cs.filter (f · < n)).mergeSort fun x y => f x ≤ f y := by
  have hsorted : ((cs.filter (f · < n)).mergeSort fun x y => f x ≤ f y).Pairwise fun x y => decide (f x ≤ f y) = true :=
    List.pairwise_mergeSort (by simp; omega) (by simp; omega) _
  refine eq_of_sorted (ranked_ordered f cs n) (by simpa using hsorted) ?_
  intro d
  rw [filter_mergeSort, filter_ranked]

theorem ranked_perm (f : String → Nat) (cs : List String) (n : Nat) : (ranked f cs n).Perm (cs.filter (f · < n)) := by
  rw [ranked_eq_mergeSort]
  exact List.mergeSort_perm _ _

/-- The first of the candidates by distance are the nearest ones. -/
theorem isNearest_take (f : String → Nat) (k m : Nat) (cs : List String) : IsNearest f k m cs ((ranked f cs (k + 1)).take m) where
  occurs c := by
    have htake : ((ranked f cs (k + 1)).take m).count c ≤ (ranked f cs (k + 1)).count c :=
      (List.take_sublist _ _).count_le c
    have hfilter : (cs.filter (f · < k + 1)).count c ≤ cs.count c := List.filter_sublist.count_le c
    rw [(ranked_perm f cs (k + 1)).count_eq] at htake
    omega
  within c hc := by
    have hlt : f c < k + 1 := (mem_ranked.mp (List.mem_of_mem_take hc)).2
    omega
  length_eq := by
    have hcount : (cs.filter (f · < k + 1)).length = cs.countP (f · ≤ k) := by
      rw [List.countP_eq_length_filter]
      exact congrArg List.length (List.filter_congr fun c _ => decide_eq_decide.mpr Nat.lt_succ_iff)
    rw [List.length_take, (ranked_perm f cs (k + 1)).length_eq, hcount]
  ordered := (ranked_ordered f cs (k + 1)).sublist (List.take_sublist _ _)
  ties d := by
    have hbegins := (List.take_prefix m (ranked f cs (k + 1))).filter (f · = d)
    rw [filter_ranked] at hbegins
    refine hbegins.trans ?_
    rw [List.filter_filter]
    by_cases hd : d < k + 1
    · have hbelow : ∀ x ∈ cs, (decide (f x = d) && decide (f x < k + 1)) = decide (f x = d) := by
        intro x _
        rw [← Bool.decide_and, decide_eq_decide]
        omega
      exact List.filter_congr hbelow ▸ List.prefix_rfl
    · have hnone : cs.filter (fun x => f x = d && f x < k + 1) = [] := by
        simp only [List.filter_eq_nil_iff, Bool.and_eq_true, decide_eq_true_eq]
        omega
      rw [hnone]
      exact List.nil_prefix
  nearer c x hx hcx := by
    have hlt : f x < k + 1 := (mem_ranked.mp (List.mem_of_mem_take hx)).2
    have hordered := ranked_ordered f cs (k + 1)
    rw [← List.take_append_drop m (ranked f cs (k + 1)), List.pairwise_append] at hordered
    have hleft : c ∉ (ranked f cs (k + 1)).drop m := by
      intro hc
      have hxc := hordered.2.2 x hx c hc
      omega
    have htake : ((ranked f cs (k + 1)).take m).count c = (ranked f cs (k + 1)).count c := by
      have happend := congrArg (List.count c) (List.take_append_drop m (ranked f cs (k + 1)))
      rwa [List.count_append, List.count_eq_zero_of_not_mem hleft, Nat.add_zero] at happend
    rw [htake, (ranked_perm f cs (k + 1)).count_eq, List.count_filter]
    simp only [decide_eq_true_eq]
    omega

/-- What is offered are the three nearest of the candidates that are two edits away at most: those,
    sorted by distance, up to the third. -/
theorem nearest_isNearest (word : String) (candidates : List String) :
    IsNearest (wordDistance word) reach most candidates (nearest word candidates) ∧
    nearest word candidates = ((candidates.filter (wordDistance word · ≤ reach)).mergeSort
      fun x y => wordDistance word x ≤ wordDistance word y).take most := by
  have hranked : nearest word candidates = (ranked (wordDistance word) candidates (reach + 1)).take most := rfl
  rw [hranked]
  refine ⟨isNearest_take _ _ _ _, ?_⟩
  rw [ranked_eq_mergeSort]
  simp only [Nat.lt_succ_iff]

example : nearest "FUN" ["fan", "fun", "fair", "fin", "fun"] = ["fun", "fun", "fan"] := by decide

end LambdaSyntax.Hint
