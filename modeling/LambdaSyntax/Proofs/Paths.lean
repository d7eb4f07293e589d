/-
  LambdaSyntax.Proofs.Paths — the path of a file comes out of the arguments.

  The text of an option is an argument of its own or what is attached to one, and what is attached
  is part of the argument (`attached_subset`). So every character of the path stands in one argument
  (`ofArguments_file`), and a path can hold no character that no argument holds.
-/

import LambdaSyntax.Proofs.Arguments

namespace LambdaSyntax.Command

variable {t t' : Taken} {s s' : Switch} {name a v path : String} {w : Option String} {d : Demand} {cs r : List Char}
  {arguments : List String} {xs : List (String × Class)}

/-! ## Attached texts -/

theorem splitEquals_subset (h : (splitEquals cs).2 = some r) : r ⊆ cs := by
  have heq := splitEquals_eq (Prod.ext rfl h : splitEquals cs = (_, some r))
  intro c hc
  rw [heq]
  simp [hc]

theorem abbreviated_subset (h : (name, s, some v) ∈ abbreviated cs) : v.toList ⊆ cs := by
  unfold abbreviated at h
  split at h
  · obtain ⟨o, -, heq⟩ := List.mem_map.mp h
    obtain ⟨r, hr, rfl⟩ := Option.map_eq_some_iff.mp (Prod.mk.inj (Prod.mk.inj heq).2).2
    rw [String.toList_ofList]
    exact splitEquals_subset hr
  · obtain ⟨o, -, heq⟩ := List.mem_map.mp h
    obtain rfl := Option.some.inj (Prod.mk.inj (Prod.mk.inj heq).2).2
    rw [String.toList_ofList]
    exact fun c hc => by simp [hc]
  · cases h

theorem classify_subset (h : classify a = .ok (.option name s (some v))) : v.toList ⊆ a.toList := by
  unfold classify at h
  split at h
  · split at h
    · cases h
    split at h
    · cases h
    unfold classifyLong at h
    simp only at h
    split at h
    · rename_i hr _
      cases h
      rw [String.toList_ofList]
      exact splitEquals_subset hr
    split at h
    · rename_i hone
      cases h
      exact abbreviated_subset (hone ▸ List.mem_singleton.mpr rfl)
    · split at h <;> cases h
    · cases h
  · cases h

theorem cluster_subset {done : List Switch} (h : cluster s done cs = .ok d) (hd : d.valued = some (s', some v)) :
    v.toList ⊆ cs := by
  induction cs generalizing s done with
  | nil =>
    cases h
    cases hd
  | cons c cs ih =>
    rw [cluster] at h
    split at h
    · cases h
    split at h
    · cases h
      split at hd
      · cases hd
      · cases hd
        rw [String.toList_ofList]
        exact List.subset_cons_self c cs
    · exact fun x hx => List.mem_cons_of_mem c (ih h hx)

theorem demand_subset (h : demand name s w = .ok d) (hd : d.valued = some (s', some v)) :
    ∃ u, w = some u ∧ v.toList ⊆ u.toList := by
  unfold demand at h
  split at h
  · split at h <;> cases h <;> cases hd
  · rename_i u
    refine ⟨u, rfl, ?_⟩
    split at h
    · cases h
      cases hd
      exact fun _ hx => hx
    split at h
    · exact cluster_subset h hd
    · cases h

theorem attached_subset (h : classify a = .ok (.option name s w)) (hdemand : demand name s w = .ok d)
    (hd : d.valued = some (s', some v)) : v.toList ⊆ a.toList := by
  obtain ⟨u, rfl, hu⟩ := demand_subset hdemand hd
  exact fun x hx => classify_subset h (hu hx)

/-! ## The run -/

theorem classifyAll_names (h : classifyAll arguments = .ok xs) : xs.map Prod.fst = arguments := by
  induction arguments generalizing xs with
  | nil =>
    cases h
    rfl
  | cons a rest ih =>
    rcases classifyAll_cons h with ⟨-, rfl⟩ | ⟨-, c, ys, -, hrest, rfl⟩
    · simp [Function.comp_def]
    · rw [List.map_cons, ih hrest]

theorem value_file (h : t.value s v = .ok t') (hpath : t'.options.file = some path) :
    t.options.file = some path ∨ path = v := by
  unfold Taken.value at h
  split at h
  · cases h
    simp only [Taken.set, Taken.given] at hpath
    split at hpath
    · cases hpath
    · exact .inr (Option.some.inj hpath).symm
  · cases h
    exact .inl hpath
  · split at h
    · cases h
      exact .inl hpath
    · cases h
  · cases h
    exact .inl hpath

/-- The path of the file is part of an argument. -/
theorem ofArguments_file {o : Options} {depth : Int} (h : Options.ofArguments depth arguments = .ok o)
    (hpath : o.file = some path) : ∃ a ∈ arguments, path.toList ⊆ a.toList := by
  obtain ⟨xs, t, hclassified, htake, rfl⟩ := ofArguments_ok h
  refine take_preserves (P := fun t => ∀ path, t.options.file = some path → ∃ a ∈ arguments, path.toList ⊆ a.toList)
    htake (fun path hpath => nomatch hpath) ?_ path hpath
  intro x ys t t₁ hys hchange ht path hpath
  have hx : x ∈ xs := hys.subset (by simp)
  cases hchange with
  | inl hkeeps => exact ht path (hkeeps.file ▸ hpath)
  | inr hvalued =>
    cases hvalued with
    | attached hoption hdemand hd hkeeps hvalue =>
      rcases value_file hvalue hpath with hbefore | rfl
      · exact ht path (hkeeps.file ▸ hbefore)
      · obtain ⟨hmem, hclass⟩ := mem_classified hclassified hx ⟨_, _, _, hoption⟩
        exact ⟨x.1, hmem, attached_subset (hoption ▸ hclass) hdemand hd⟩
    | @next _ v _ _ _ _ _ rest _ _ _ hrest hkeeps hvalue =>
      rcases value_file hvalue hpath with hbefore | rfl
      · exact ht path (hkeeps.file ▸ hbefore)
      · have hmem : (path, Class.plain) ∈ xs := hys.subset (by simp [hrest])
        have hname : path ∈ arguments := classifyAll_names hclassified ▸ List.mem_map_of_mem hmem
        exact ⟨path, hname, fun _ hc => hc⟩

end LambdaSyntax.Command
