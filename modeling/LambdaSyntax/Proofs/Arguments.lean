/-
  LambdaSyntax.Proofs.Arguments — which arguments leave the depth open.

  The reading of the arguments starts with a number for the depth, and only the text `--` as the
  value of `--max-depth` takes it away (`value_depth`). Behind an option the argument `--` is not
  its value, as it then ends the options (`apart_classified`). So the text was attached to the
  name: the depth is left open only by an argument like `--max-depth=--`, with the name in full
  or with a beginning of it (`ofArguments_open`). A number that is taken has been read, and can be
  written again (`ofArguments_short`).
-/

import Mathlib.Data.List.Chain
import LambdaSyntax.Command.Options
import LambdaSyntax.Proofs.Digits

namespace LambdaSyntax.Command

variable {t t' : Taken} {s : Switch} {name v : String} {attached : Option String} {d : Demand}
  {x : String × Class} {xs : List (String × Class)}

/-! ## One step -/

/-- A value leaves the depth open only if it is a depth and `--`. -/
theorem value_depth (h : t.value s v = .ok t') (hopen : t'.options.maxDepth = none) :
    t.options.maxDepth = none ∨ s = .maxDepth ∧ v = "--" := by
  by_cases hs : s = .maxDepth
  · subst hs
    by_cases hv : v = "--"
    · exact .inr ⟨rfl, hv⟩
    · simp only [Taken.value, Taken.given, if_neg hv] at h
      split at h
      · cases h
        cases hopen
      · cases h
  · left
    cases s <;> first | exact absurd rfl hs | (cases h; exact hopen)

/-- A depth that is read is short. -/
theorem value_short (h : t.value s v = .ok t') (ht : ∀ n ∈ t.options.maxDepth, Text.isShort n = true) :
    ∀ n ∈ t'.options.maxDepth, Text.isShort n = true := by
  intro n hn
  unfold Taken.value at h
  split at h
  · cases h
    exact ht n hn
  · cases h
    cases hn
  · split at h
    · rename_i m hm
      cases h
      obtain rfl := Option.some.inj hn
      exact Text.integer?_short hm
    · cases h
  · cases h
    exact ht n hn

theorem listed_maxDepth (h : (name, Switch.maxDepth) ∈ Switch.listing) : name = "--max-depth" := by
  simpa [Switch.listing, Switch.all, Switch.names] using h

theorem named_maxDepth (h : Switch.named? name = some .maxDepth) : name = "--max-depth" := by
  obtain ⟨before, after, hlisting, -⟩ := List.lookup_eq_some_iff.mp h
  exact listed_maxDepth (by simp [hlisting])

theorem cluster_not_depth {done : List Switch} {cs : List Char} {w : Option String} (h : cluster s done cs = .ok d) :
    d.valued ≠ some (.maxDepth, w) := by
  induction cs generalizing s done with
  | nil =>
    cases h
    simp
  | cons c cs ih =>
    rw [cluster] at h
    cases hnamed : Switch.named? (String.ofList ['-', c]) with
    | none =>
      rw [hnamed] at h
      cases h
    | some next =>
      rw [hnamed] at h
      simp only at h
      split at h
      · cases h
        intro hvalued
        obtain ⟨rfl, -⟩ := Prod.mk.inj (Option.some.inj hvalued)
        have hlength : 2 = "--max-depth".toList.length := by
          rw [← named_maxDepth hnamed, String.toList_ofList]
          rfl
        exact absurd hlength (by decide)
      · exact ih h

/-- A depth is asked for only by its own name. -/
theorem demand_depth {w : Option String} (h : demand name s attached = .ok d) (hd : d.valued = some (.maxDepth, w)) :
    s = .maxDepth ∧ attached = w := by
  unfold demand at h
  split at h
  · split at h <;> cases h
    · obtain ⟨rfl, rfl⟩ := Prod.mk.inj (Option.some.inj hd)
      exact ⟨rfl, rfl⟩
    · cases hd
  · split at h
    · cases h
      obtain ⟨rfl, rfl⟩ := Prod.mk.inj (Option.some.inj hd)
      exact ⟨rfl, rfl⟩
    split at h
    · exact absurd hd (cluster_not_depth h)
    · cases h

/-! ## Classified arguments -/

theorem classifyAll_cons {a : String} {rest : List String} (h : classifyAll (a :: rest) = .ok xs) :
    (a = "--" ∧ xs = (a, .dashes) :: rest.map fun b => (b, .plain)) ∨
    a ≠ "--" ∧ ∃ c ys, classify a = .ok c ∧ classifyAll rest = .ok ys ∧ xs = (a, c) :: ys := by
  rw [classifyAll] at h
  by_cases ha : a = "--"
  · rw [if_pos ha] at h
    exact .inl ⟨ha, (Except.ok.inj h).symm⟩
  · rw [if_neg ha] at h
    refine .inr ⟨ha, ?_⟩
    cases hc : classify a with
    | error e =>
      rw [hc] at h
      cases h
    | ok c =>
      cases hrest : classifyAll rest with
      | error e =>
        rw [hc, hrest] at h
        cases h
      | ok ys =>
        rw [hc, hrest] at h
        exact ⟨c, ys, rfl, rfl, (Except.ok.inj h).symm⟩

def Class.IsOption (c : Class) : Prop := ∃ name s attached, c = .option name s attached

/-- Behind an option, `--` is not there to be its value. -/
def Apart (xs : List (String × Class)) : Prop := xs.IsChain fun x y => x.2.IsOption → y ≠ ("--", .plain)

theorem apart_plain (arguments : List String) : Apart (arguments.map fun a => (a, .plain)) := by
  induction arguments with
  | nil => exact .nil
  | cons a rest ih =>
    refine List.isChain_cons.mpr ⟨?_, ih⟩
    rintro y - ⟨name, s, attached, ⟨⟩⟩

theorem apart_classified {arguments : List String} (h : classifyAll arguments = .ok xs) : Apart xs := by
  induction arguments generalizing xs with
  | nil =>
    cases h
    exact .nil
  | cons a rest ih =>
    rcases classifyAll_cons h with ⟨-, rfl⟩ | ⟨-, c, ys, -, hrest, rfl⟩
    · refine List.isChain_cons.mpr ⟨?_, apart_plain rest⟩
      rintro y - ⟨name, s, attached, ⟨⟩⟩
    · refine List.isChain_cons.mpr ⟨?_, ih hrest⟩
      rintro y hy - rfl
      cases rest with
      | nil =>
        cases hrest
        cases hy
      | cons b rest =>
        rcases classifyAll_cons hrest with ⟨-, rfl⟩ | ⟨hb, c', ys', -, -, rfl⟩
        · cases hy
        · cases hy
          exact hb rfl

theorem mem_classified {arguments : List String} (h : classifyAll arguments = .ok xs) (hx : x ∈ xs) (ho : x.2.IsOption) :
    x.1 ∈ arguments ∧ classify x.1 = .ok x.2 := by
  induction arguments generalizing xs with
  | nil =>
    cases h
    cases hx
  | cons a rest ih =>
    rcases classifyAll_cons h with ⟨-, rfl⟩ | ⟨-, c, ys, hc, hrest, rfl⟩
    · obtain ⟨name, s, attached, hoption⟩ := ho
      rcases List.mem_cons.mp hx with rfl | hx
      · cases hoption
      · obtain ⟨b, -, rfl⟩ := List.mem_map.mp hx
        cases hoption
    · rcases List.mem_cons.mp hx with rfl | hx
      · exact ⟨by simp, hc⟩
      · obtain ⟨hmem, hclass⟩ := ih hrest hx
        exact ⟨List.mem_cons_of_mem _ hmem, hclass⟩

/-! ## The run -/

theorem bind_eq_ok {α β ε : Type} {r : Except ε α} {f : α → Except ε β} {b : β} (h : r.bind f = .ok b) :
    ∃ a, r = .ok a ∧ f a = .ok b := by
  cases r with
  | error e => cases h
  | ok a => exact ⟨a, rfl, h⟩

/-- The file and the depth are as they were. -/
structure Keeps (t t' : Taken) : Prop where
  file : t'.options.file = t.options.file
  maxDepth : t'.options.maxDepth = t.options.maxDepth

theorem flag_keeps (h : t.flag s = .ok t') : Keeps t t' := by
  cases s <;> cases h <;> exact ⟨rfl, rfl⟩

theorem flags_keeps {ss : List Switch} (h : t.flags ss = .ok t') : Keeps t t' := by
  induction ss generalizing t with
  | nil =>
    cases h
    exact ⟨rfl, rfl⟩
  | cons s ss ih =>
    rw [Taken.flags] at h
    cases hflag : t.flag s with
    | error e =>
      rw [hflag] at h
      cases h
    | ok t₁ =>
      rw [hflag] at h
      have hfirst := flag_keeps hflag
      have hrest := ih h
      exact ⟨hrest.file.trans hfirst.file, hrest.maxDepth.trans hfirst.maxDepth⟩

/-- The argument `x` with `xs` behind it gives an option its text: one that is attached, or the next argument. -/
inductive Valued (x : String × Class) (xs : List (String × Class)) (t t' : Taken) : Prop
  | attached {name v : String} {s s' : Switch} {w : Option String} {d : Demand} {t₁ : Taken} :
      x.2 = .option name s w → demand name s w = .ok d → d.valued = some (s', some v) → Keeps t t₁ →
      t₁.value s' v = .ok t' → Valued x xs t t'
  | next {name v : String} {s s' : Switch} {w : Option String} {d : Demand} {t₁ : Taken} {rest : List (String × Class)} :
      x.2 = .option name s w → demand name s w = .ok d → d.valued = some (s', none) → xs = (v, .plain) :: rest →
      Keeps t t₁ → t₁.value s' v = .ok t' → Valued x xs t t'

/-- What an argument asks for that has a text: the option, and the text unless that is the next argument. -/
def Class.valued? : Class → Option (Switch × Option String)
  | .option name s w =>
    match demand name s w with
    | .ok d => d.valued
    | .error _ => none
  | _ => none

/-- One step takes an argument, and perhaps one behind it that is no option. -/
theorem take_step (h : take (x :: xs) t = .ok t') :
    ∃ skipped ys t₁, xs = skipped ++ ys ∧ (∀ y ∈ skipped, ¬y.2.IsOption) ∧ take ys t₁ = .ok t' ∧
      (Keeps t t₁ ∧ x.2.valued? = none ∨ Valued x xs t t₁) := by
  have none_skipped : ∀ y ∈ ([] : List (String × Class)), ¬y.2.IsOption := by simp
  have one_skipped {y : String × Class} (hy : ¬y.2.IsOption) : ∀ z ∈ [y], ¬z.2.IsOption := by
    intro z hz
    rwa [List.mem_singleton.mp hz]
  have plain_no_option : ¬Class.plain.IsOption := by
    rintro ⟨name, s, attached, ⟨⟩⟩
  have dashes_no_option : ¬Class.dashes.IsOption := by
    rintro ⟨name, s, attached, ⟨⟩⟩
  obtain ⟨a, c⟩ := x
  cases c with
  | unknown =>
    rw [take] at h
    exact ⟨[], xs, _, rfl, none_skipped, h, .inl ⟨⟨rfl, rfl⟩, rfl⟩⟩
  | option name s w =>
    rw [take] at h
    cases hdemand : demand name s w with
    | error r =>
      rw [hdemand] at h
      cases h
    | ok d =>
      rw [hdemand] at h
      simp only at h
      split at h
      · -- flags alone
        rename_i hvalued
        obtain ⟨t₁, hflags, htake⟩ := bind_eq_ok h
        exact ⟨[], _, t₁, rfl, none_skipped, htake,
          .inl ⟨flags_keeps hflags, by simp only [Class.valued?, hdemand, hvalued]⟩⟩
      · -- a value that is attached
        rename_i hvalued
        obtain ⟨t₂, hvalue, htake⟩ := bind_eq_ok h
        obtain ⟨t₁, hflags, hvalue⟩ := bind_eq_ok hvalue
        exact ⟨[], _, t₂, rfl, none_skipped, htake, .inr (.attached rfl hdemand hvalued (flags_keeps hflags) hvalue)⟩
      · -- a value that is the next argument
        rename_i rest hvalued
        obtain ⟨t₂, hvalue, htake⟩ := bind_eq_ok h
        obtain ⟨t₁, hflags, hvalue⟩ := bind_eq_ok hvalue
        exact ⟨[_], rest, t₂, rfl, one_skipped plain_no_option, htake,
          .inr (.next rfl hdemand hvalued rfl (flags_keeps hflags) hvalue)⟩
      · cases h
  | plain =>
    rw [take] at h
    split at h
    · simp only at h
      split at h
      · exact ⟨[_], _, _, rfl, one_skipped dashes_no_option, h, .inl ⟨⟨rfl, rfl⟩, rfl⟩⟩
      · exact ⟨[], _, _, rfl, none_skipped, h, .inl ⟨⟨rfl, rfl⟩, rfl⟩⟩
    · exact ⟨[], xs, _, rfl, none_skipped, h, .inl ⟨⟨rfl, rfl⟩, rfl⟩⟩
  | dashes =>
    rw [take] at h
    split at h
    · simp only at h
      split at h
      · exact ⟨[_], _, _, rfl, one_skipped plain_no_option, h, .inl ⟨⟨rfl, rfl⟩, rfl⟩⟩
      · exact ⟨[], _, _, rfl, none_skipped, h, .inl ⟨⟨rfl, rfl⟩, rfl⟩⟩
    · exact ⟨[], xs, _, rfl, none_skipped, h, .inl ⟨⟨rfl, rfl⟩, rfl⟩⟩

/-- Backward along the steps: what holds at the end, and before a step if it does behind it, holds at first. -/
theorem take_induct {M : List (String × Class) → Taken → Prop} (h : take xs t = .ok t') (hnil : M [] t')
    (hcons : ∀ x skipped ys t t₁, (∀ y ∈ skipped, ¬y.2.IsOption) →
      (Keeps t t₁ ∧ x.2.valued? = none ∨ Valued x (skipped ++ ys) t t₁) → M ys t₁ → M (x :: (skipped ++ ys)) t) : M xs t := by
  -- on the number of arguments, as an option may take the next one too
  induction hn : xs.length using Nat.strongRecOn generalizing xs t with
  | ind n ih =>
    cases xs with
    | nil =>
      cases h
      exact hnil
    | cons x xs =>
      obtain ⟨skipped, ys, t₁, rfl, hskipped, htake, hchange⟩ := take_step h
      have hlength : ys.length < n := by
        rw [List.length_cons, List.length_append] at hn
        omega
      exact hcons x skipped ys t t₁ hskipped hchange (ih _ hlength htake rfl)

/-- What holds at first and is kept by every step holds when all the arguments are taken. -/
theorem take_preserves {P : Taken → Prop} (h : take xs t = .ok t') (ht : P t)
    (hstep : ∀ x ys t t₁, x :: ys <:+ xs → Keeps t t₁ ∨ Valued x ys t t₁ → P t → P t₁) : P t' := by
  suffices hall : xs <:+ xs → P t → P t' from hall List.suffix_rfl ht
  refine take_induct (M := fun zs u => zs <:+ xs → P u → P t') h (fun _ hP => hP) ?_
  intro x skipped ys u u₁ _ hchange hrest hsuffix hP
  have hys : ys <:+ x :: (skipped ++ ys) := (List.suffix_append skipped ys).trans (List.suffix_cons _ _)
  exact hrest (hys.trans hsuffix) (hstep x _ u u₁ hsuffix (hchange.imp_left And.left) hP)

/-- An option with `--` attached for the depth. -/
def Class.OpensDepth (c : Class) : Prop := ∃ name, c = .option name .maxDepth (some "--")

theorem Valued.opens (h : Valued x xs t t') (happart : Apart (x :: xs)) (hopen : t'.options.maxDepth = none) :
    t.options.maxDepth = none ∨ x.2.OpensDepth := by
  cases h with
  | attached hx hdemand hvalued hkeeps hvalue =>
    rcases value_depth hvalue hopen with ho | ⟨rfl, rfl⟩
    · exact .inl (hkeeps.maxDepth ▸ ho)
    · obtain ⟨rfl, rfl⟩ := demand_depth hdemand hvalued
      exact .inr ⟨_, hx⟩
  | next hx _ _ hxs hkeeps hvalue =>
    rcases value_depth hvalue hopen with ho | ⟨-, rfl⟩
    · exact .inl (hkeeps.maxDepth ▸ ho)
    · subst hxs
      exact absurd rfl ((List.isChain_cons_cons.mp happart).1 ⟨_, _, _, hx⟩)

/-- Taking the arguments leaves the depth open only if one of them has `--` attached for it. -/
theorem take_open (happart : Apart xs) (h : take xs t = .ok t') (hopen : t'.options.maxDepth = none) :
    t.options.maxDepth = none ∨ ∃ x ∈ xs, x.2.OpensDepth := by
  refine Classical.byContradiction fun hnot => ?_
  rw [not_or] at hnot
  refine take_preserves (P := fun t => t.options.maxDepth ≠ none) h hnot.1 (fun x ys t t₁ hys hchange ht ho => ?_) hopen
  rcases hchange with hkeeps | hvalued
  · exact ht (hkeeps.maxDepth ▸ ho)
  · rcases hvalued.opens (happart.suffix hys) ho with ho | hopens
    · exact ht ho
    · exact hnot.2 ⟨x, hys.subset (by simp), hopens⟩

/-! ## Texts -/

theorem splitEquals_eq {cs p r : List Char} (h : splitEquals cs = (p, some r)) : cs = p ++ '=' :: r := by
  unfold splitEquals at h
  split at h
  · cases h
  · rename_i c rest hrest
    cases h
    have hhead := List.head?_dropWhile_not (fun c => decide (c ≠ '=')) cs
    rw [hrest] at hhead
    obtain rfl : c = '=' := by simpa using hhead
    rw [← hrest, List.takeWhile_append_dropWhile]

/-- What is attached to a beginning of the depth's name stands behind `=`. -/
theorem abbreviated_depth {cs : List Char} (h : (name, Switch.maxDepth, attached) ∈ abbreviated cs) :
    (splitEquals cs).1 <+: "--max-depth".toList ∧ attached = (splitEquals cs).2.map String.ofList := by
  unfold abbreviated at h
  split at h
  · obtain ⟨⟨n, s⟩, hmem, heq⟩ := List.mem_map.mp h
    obtain ⟨hlisted, hbegins⟩ := List.mem_filter.mp hmem
    cases heq
    obtain rfl := listed_maxDepth hlisted
    exact ⟨List.isPrefixOf_iff_prefix.mp hbegins, rfl⟩
  · obtain ⟨⟨n, s⟩, hmem, heq⟩ := List.mem_map.mp h
    obtain ⟨hlisted, hshort⟩ := List.mem_filter.mp hmem
    cases heq
    obtain rfl := listed_maxDepth hlisted
    simp at hshort
  · cases h

theorem classifyLong_depth {a : String} (h : classifyLong a = .ok (.option name .maxDepth (some v))) :
    (splitEquals a.toList).1 <+: "--max-depth".toList ∧ (splitEquals a.toList).2 = some v.toList := by
  unfold classifyLong at h
  simp only at h
  split at h
  · rename_i w s hw hnamed
    cases h
    have hname := congrArg String.toList (named_maxDepth hnamed)
    rw [String.toList_ofList] at hname
    exact ⟨hname ▸ List.prefix_rfl, by simp [hw]⟩
  split at h
  · rename_i habbreviated
    cases h
    obtain ⟨hbegins, hattached⟩ := abbreviated_depth (habbreviated ▸ List.mem_singleton.mpr rfl)
    obtain ⟨w, hw, rfl⟩ := Option.map_eq_some_iff.mp hattached.symm
    exact ⟨hbegins, by simp [hw]⟩
  · split at h <;> cases h
  · cases h

/-- An argument with a text attached for the depth: the name or a beginning of it, `=` and the text. -/
theorem attached_text {a : String} (h : classify a = .ok (.option name .maxDepth (some v))) :
    ∃ p, p <+: "--max-depth".toList ∧ a.toList = p ++ '=' :: v.toList := by
  unfold classify at h
  split at h
  · split at h
    · cases h
    split at h
    · cases h
    · obtain ⟨hbegins, hbehind⟩ := classifyLong_depth h
      exact ⟨_, hbegins, splitEquals_eq (Prod.ext rfl hbehind)⟩
  · cases h

/-- The name of the depth or a beginning of it, with `--` attached. -/
def LeavesOpen (argument : String) : Prop := ∃ p, p <+: "--max-depth".toList ∧ argument.toList = p ++ "=--".toList

/-- Reads arguments from some state on. -/
def reading (arguments : List String) (t : Taken) : Except Stop Taken :=
  match classifyAll arguments with
  | .error r => .error (.refused r)
  | .ok classified => take classified t

def begun (depth : Int) : Taken := ⟨.initial depth, true, []⟩

theorem ofArguments_eq (depth : Int) (arguments : List String) :
    Options.ofArguments depth arguments = (reading arguments (begun depth)).bind fun t =>
      if t.left.isEmpty then .ok t.options else .error (.refused (.leftOver t.left)) := by
  rw [Options.ofArguments, reading, begun]
  cases classifyAll arguments with
  | error r => rfl
  | ok classified =>
    simp only
    cases take classified ⟨.initial depth, true, []⟩ <;> rfl

/-- Options come of arguments that are all classified and all taken. -/
theorem ofArguments_ok {o : Options} {depth : Int} {arguments : List String}
    (h : Options.ofArguments depth arguments = .ok o) :
    ∃ xs t, classifyAll arguments = .ok xs ∧ take xs (begun depth) = .ok t ∧ t.options = o := by
  rw [ofArguments_eq] at h
  obtain ⟨t, hread, hoptions⟩ := bind_eq_ok h
  unfold reading at hread
  split at hread
  · cases hread
  · rename_i xs hclassified
    split at hoptions
    · exact ⟨xs, t, hclassified, hread, Except.ok.inj hoptions⟩
    · cases hoptions

/-- Where the depth is left open, one of the arguments leaves it open. -/
theorem ofArguments_open {o : Options} {depth : Int} {arguments : List String}
    (h : Options.ofArguments depth arguments = .ok o) (hopen : o.maxDepth = none) : ∃ a ∈ arguments, LeavesOpen a := by
  obtain ⟨xs, t, hclassified, htake, rfl⟩ := ofArguments_ok h
  rcases take_open (apart_classified hclassified) htake hopen with hnone | ⟨x, hx, name, hoption⟩
  · cases hnone
  · obtain ⟨hmem, hclass⟩ := mem_classified hclassified hx ⟨name, _, _, hoption⟩
    obtain ⟨p, hp, htext⟩ := attached_text (hoption ▸ hclass)
    exact ⟨x.1, hmem, p, hp, htext⟩

theorem isShort_defaultLimit : Text.isShort Parse.defaultLimit = true :=
  Text.isShort_of_lt (show _ < 10 ^ 2 by decide) (by decide)

/-- A depth that is taken can be written. -/
theorem ofArguments_short {o : Options} {arguments : List String}
    (h : Options.ofArguments Parse.defaultLimit arguments = .ok o) : ∀ n ∈ o.maxDepth, Text.isShort n = true := by
  obtain ⟨xs, t, -, htake, rfl⟩ := ofArguments_ok h
  refine take_preserves (P := fun t => ∀ n ∈ t.options.maxDepth, Text.isShort n = true) htake ?_ ?_
  · intro n hn
    obtain rfl := Option.some.inj hn
    exact isShort_defaultLimit
  · intro x ys t t₁ _ hchange ht
    rcases hchange with hkeeps | hvalued
    · rwa [hkeeps.maxDepth]
    · cases hvalued with
      | attached _ _ _ hkeeps hvalue | next _ _ _ _ hkeeps hvalue =>
        exact value_short hvalue (by rwa [hkeeps.maxDepth])

end LambdaSyntax.Command
