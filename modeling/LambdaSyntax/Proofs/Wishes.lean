/-
  LambdaSyntax.Proofs.Wishes — arguments that say how to read and print, whatever is read.

  `Wishes xs`: the arguments `xs` are `--type`, `--json` and depths, in any order, number and spelling.
  Wherever they stand, such arguments are refused for a depth that is none, or set
  their options and leave all else to the arguments behind them (`Wishes.settles`). So an expression or
  a file may stand anywhere between them, and the options differ from those of the wishes alone in
  what it gives and in nothing else (`GivesText.amended`, `GivesFile.amended`). A `--` may close the
  arguments; unless it stands right before the expression or right behind it, there is to be none
  (`reading_closing`).
-/

import LambdaSyntax.Proofs.Arguments

namespace LambdaSyntax.Command

variable {t t' : Taken} {s : Switch} {c : Class} {name v a text path : String} {xs ys rest arguments : List String}
  {depth : Int}

/-! ## Taken and refused -/

theorem ofArguments_of_ok (h : reading arguments (begun depth) = .ok t) (hleft : t.left = []) :
    Options.ofArguments depth arguments = .ok t.options := by
  rw [ofArguments_eq, h]
  simp [Except.bind, hleft]

def Refused {α : Type} (x : Except Stop α) : Prop := ∃ r, x = .error (.refused r)

theorem ofArguments_of_refused (h : Refused (reading arguments (begun depth))) :
    Refused (Options.ofArguments depth arguments) := by
  obtain ⟨r, h⟩ := h
  rw [ofArguments_eq, h]
  exact ⟨r, rfl⟩

theorem ne_dashes (h : classify a = .ok c) : a ≠ "--" := by
  rintro rfl
  have hambiguous : ∃ r, classify "--" = .error r := ⟨_, rfl⟩
  obtain ⟨r, hr⟩ := hambiguous
  rw [hr] at h
  cases h

theorem classifyAll_of_classify (h : classify a = .ok c) (rest : List String) :
    classifyAll (a :: rest) = (classifyAll rest).map ((a, c) :: ·) := by
  rw [classifyAll, if_neg (ne_dashes h), h]

/-! ## One option -/

theorem reading_flag (h : classify a = .ok (.option name s none)) (hs : s.takesValue = false) (hflag : t.flag s = .ok t')
    (rest : List String) : reading (a :: rest) t = reading rest t' := by
  unfold reading
  rw [classifyAll_of_classify h]
  cases classifyAll rest with
  | error r => rfl
  | ok zs => simp [Except.map, take, demand, hs, Taken.flags, hflag, Except.bind]

theorem reading_attached (h : classify a = .ok (.option name s (some v))) (hs : s.takesValue = true)
    (hvalue : t.value s v = .ok t') (rest : List String) : reading (a :: rest) t = reading rest t' := by
  unfold reading
  rw [classifyAll_of_classify h]
  cases classifyAll rest with
  | error r => rfl
  | ok zs => simp [Except.map, take, demand, hs, Taken.flags, hvalue, Except.bind]

theorem refused_attached (h : classify a = .ok (.option name s (some v))) (hs : s.takesValue = true)
    (hvalue : Refused (t.value s v)) (rest : List String) : Refused (reading (a :: rest) t) := by
  obtain ⟨r, hvalue⟩ := hvalue
  unfold reading
  rw [classifyAll_of_classify h]
  cases classifyAll rest with
  | error r' => exact ⟨r', rfl⟩
  | ok zs => exact ⟨r, by simp [Except.map, take, demand, hs, Taken.flags, hvalue, Except.bind]⟩

theorem reading_apart (h : classify a = .ok (.option name s none)) (hs : s.takesValue = true)
    (hplain : classify v = .ok .plain) (hvalue : t.value s v = .ok t') (rest : List String) :
    reading (a :: v :: rest) t = reading rest t' := by
  unfold reading
  rw [classifyAll_of_classify h, classifyAll_of_classify hplain]
  cases classifyAll rest with
  | error r => rfl
  | ok zs => simp [Except.map, take, demand, hs, Taken.flags, hvalue, Except.bind]

/-- What stands behind an option that takes a value is its value, or there is none. -/
theorem refused_apart (h : classify a = .ok (.option name s none)) (hs : s.takesValue = true)
    (hvalue : classify v = .ok .plain → Refused (t.value s v)) (rest : List String) :
    Refused (reading (a :: v :: rest) t) := by
  unfold reading
  rw [classifyAll_of_classify h]
  by_cases hv : v = "--"
  · rw [classifyAll, if_pos hv]
    exact ⟨.missingValue s, by simp [Except.map, take, demand, hs]⟩
  rw [classifyAll, if_neg hv]
  cases hc : classify v with
  | error r => exact ⟨r, rfl⟩
  | ok c =>
    cases classifyAll rest with
    | error r => exact ⟨r, rfl⟩
    | ok zs =>
      cases c with
      | plain =>
        obtain ⟨r, hvalue⟩ := hvalue hc
        exact ⟨r, by simp [Except.map, take, demand, hs, Taken.flags, hvalue, Except.bind]⟩
      | dashes | option | unknown => exact ⟨.missingValue s, by simp [Except.map, take, demand, hs]⟩

/-! ## What wishes do -/

/-- The options are changed apart from where the source is and from printing tokens. -/
structure Tunes (f : Options → Options) : Prop where
  expression : ∀ o e, f { o with expression := e } = { f o with expression := e }
  file : ∀ o p, f { o with file := p } = { f o with file := p }
  tokens : ∀ o, (f o).tokens = o.tokens

/-- What some arguments do, whatever stands behind them. -/
inductive Settles (xs : List String) : Prop
  | tunes (f : Options → Options) : Tunes f → (∀ rest t, reading (xs ++ rest) t = reading rest (t.set f)) → Settles xs
  | refused : (∀ rest t, Refused (reading (xs ++ rest) t)) → Settles xs

theorem reading_alone {f : Options → Options} (h : ∀ rest t, reading (xs ++ rest) t = reading rest (t.set f)) (t : Taken) :
    reading xs t = .ok (t.set f) := by
  rw [← List.append_nil xs, h]
  rfl

theorem refused_alone (h : ∀ rest t, Refused (reading (xs ++ rest) t)) (t : Taken) : Refused (reading xs t) := by
  rw [← List.append_nil xs]
  exact h [] t

theorem Settles.nil : Settles [] := .tunes id ⟨fun _ _ => rfl, fun _ _ => rfl, fun _ => rfl⟩ fun _ _ => rfl

theorem Settles.append (hx : Settles xs) (hy : Settles ys) : Settles (xs ++ ys) := by
  cases hx with
  | refused hx => exact .refused fun rest t => by simpa using hx (ys ++ rest) t
  | tunes f hf hx =>
    cases hy with
    | refused hy =>
      refine .refused fun rest t => ?_
      rw [List.append_assoc, hx]
      exact hy rest _
    | tunes g hg hy =>
      refine .tunes (g ∘ f) ⟨?_, ?_, ?_⟩ fun rest t => ?_
      · intro o e
        rw [Function.comp, Function.comp, hf.expression, hg.expression]
      · intro o p
        rw [Function.comp, Function.comp, hf.file, hg.file]
      · intro o
        rw [Function.comp, hg.tokens, hf.tokens]
      · rw [List.append_assoc, hx, hy]
        rfl

theorem settles_flag (h : classify a = .ok (.option name s none)) (hs : s = .type ∨ s = .json) : Settles [a] := by
  rcases hs with rfl | rfl
  · exact .tunes (fun o => { o with type := true }) ⟨fun _ _ => rfl, fun _ _ => rfl, fun _ => rfl⟩ fun rest t =>
      reading_flag h rfl rfl rest
  · exact .tunes (fun o => { o with json := true }) ⟨fun _ _ => rfl, fun _ _ => rfl, fun _ => rfl⟩ fun rest t =>
      reading_flag h rfl rfl rest

/-- The text is a depth, or leaves it open, or is refused. -/
theorem value_maxDepth (v : String) :
    (∃ d, ∀ t : Taken, t.value .maxDepth v = .ok (t.set fun o => { o with maxDepth := d })) ∨
      ∀ t : Taken, Refused (t.value .maxDepth v) := by
  unfold Taken.value
  cases Taken.given v with
  | none => exact .inl ⟨none, fun _ => rfl⟩
  | some w =>
    cases hw : Text.integer? w with
    | none => exact .inr fun _ => ⟨.notANumber .maxDepth w, by simp only [hw]⟩
    | some n => exact .inl ⟨some n, fun _ => by simp only [hw]⟩

theorem tunes_depth (d : Option Int) : Tunes fun o => { o with maxDepth := d } :=
  ⟨fun _ _ => rfl, fun _ _ => rfl, fun _ => rfl⟩

theorem settles_attached (h : classify a = .ok (.option name .maxDepth (some v))) : Settles [a] := by
  rcases value_maxDepth v with ⟨d, hvalue⟩ | hvalue
  · exact .tunes _ (tunes_depth d) fun rest t => reading_attached h rfl (hvalue t) rest
  · exact .refused fun rest t => refused_attached h rfl (hvalue t) rest

theorem settles_apart (h : classify a = .ok (.option name .maxDepth none)) : Settles [a, v] := by
  by_cases hplain : classify v = .ok .plain
  · rcases value_maxDepth v with ⟨d, hvalue⟩ | hvalue
    · exact .tunes _ (tunes_depth d) fun rest t => reading_apart h rfl hplain (hvalue t) rest
    · exact .refused fun rest t => refused_apart h rfl (fun _ => hvalue t) rest
  · exact .refused fun rest t => refused_apart h rfl (fun hv => absurd hv hplain) rest

/-- How to read and print: as a type or not, as JSON or not, and to which depth. -/
inductive Wishes : List String → Prop
  | nil : Wishes []
  | flag {a name : String} {s : Switch} {rest : List String} :
      classify a = .ok (.option name s none) → s = .type ∨ s = .json → Wishes rest → Wishes (a :: rest)
  | attached {a name v : String} {rest : List String} :
      classify a = .ok (.option name .maxDepth (some v)) → Wishes rest → Wishes (a :: rest)
  | apart {a name v : String} {rest : List String} :
      classify a = .ok (.option name .maxDepth none) → Wishes rest → Wishes (a :: v :: rest)

theorem Wishes.settles (h : Wishes xs) : Settles xs := by
  induction h with
  | nil => exact .nil
  | flag h hs _ ih => exact (settles_flag h hs).append ih
  | attached h _ ih => exact (settles_attached h).append ih
  | apart h _ ih => exact (settles_apart h).append ih

/-! ## With a source -/

/-- Nothing, or the `--` behind which nothing is an option. -/
def Closing (xs : List String) : Prop := xs = [] ∨ xs = ["--"]

/-- The text is an expression among the arguments, or the one at their end with `--` before it or behind it. -/
inductive GivesText (text : String) : List String → List String → Prop
  | among {xs ys : List String} : Wishes xs → Wishes ys → classify text = .ok .plain →
      GivesText text (xs ++ ys) (xs ++ text :: ys)
  | before {xs : List String} : Wishes xs → classify text = .ok .plain → GivesText text xs (xs ++ [text, "--"])
  | behind {xs : List String} : Wishes xs → GivesText text xs (xs ++ ["--", text])

/-- The source is left to the standard input. -/
inductive GivesNone : List String → List String → Prop
  | closed {xs zs : List String} : Wishes xs → Closing zs → GivesNone xs (xs ++ zs)

/-- The path is the text of `--file`, attached to it or behind it, among the arguments. It may be one that
    names no file: an empty text, or `--`, which can only be attached. -/
inductive GivesFile (path : String) : List String → List String → Prop
  | attached {xs ys zs : List String} {a name : String} : Wishes xs → Wishes ys → Closing zs →
      classify a = .ok (.option name .file (some path)) → GivesFile path (xs ++ ys) (xs ++ a :: (ys ++ zs))
  | apart {xs ys zs : List String} {a name : String} : Wishes xs → Wishes ys → Closing zs →
      classify a = .ok (.option name .file none) → classify path = .ok .plain →
      GivesFile path (xs ++ ys) (xs ++ a :: path :: (ys ++ zs))

/-- The options are taken with a change, or refused in both cases. -/
inductive Amended (f : Options → Options) : Except Stop Options → Except Stop Options → Prop
  | taken (o : Options) : Amended f (.ok o) (.ok (f o))
  | refused (r r' : Refusal) : Amended f (.error (.refused r)) (.error (.refused r'))

theorem amended_of_refused {f : Options → Options} (hx : Refused (reading xs (begun depth)))
    (hy : Refused (reading ys (begun depth))) :
    Amended f (Options.ofArguments depth xs) (Options.ofArguments depth ys) := by
  obtain ⟨r, hx⟩ := ofArguments_of_refused hx
  obtain ⟨r', hy⟩ := ofArguments_of_refused hy
  rw [hx, hy]
  exact .refused r r'

/-- Wishes start with an option. -/
theorem Wishes.starts (h : Wishes xs) :
    xs = [] ∨ ∃ a rest name s attached, xs = a :: rest ∧ classify a = .ok (.option name s attached) := by
  cases h with
  | nil => exact .inl rfl
  | flag h _ _ | attached h _ | apart h _ => exact .inr ⟨_, _, _, _, _, rfl, h⟩

/-- An argument for the expression, when none has been given. -/
theorem reading_text (h : classify text = .ok .plain) (hys : Wishes ys) (hwaiting : t.waiting = true) :
    reading (text :: ys) t =
      reading ys ({ t with waiting := false }.set fun o => { o with expression := some text }) := by
  unfold reading
  rw [classifyAll_of_classify h]
  rcases hys.starts with rfl | ⟨a, rest, name, s, attached, rfl, ha⟩
  · simp [classifyAll, Except.map, take, hwaiting]
  · rw [classifyAll_of_classify ha]
    cases classifyAll rest with
    | error r => rfl
    | ok zs => simp [Except.map, take, hwaiting]

/-- A closing `--` changes nothing while the expression is still to come. -/
theorem reading_closing {zs : List String} (h : Closing zs) (o : Options) :
    ∃ waiting, reading zs ⟨o, true, []⟩ = .ok ⟨o, waiting, []⟩ := by
  rcases h with rfl | rfl
  · exact ⟨true, rfl⟩
  · exact ⟨false, rfl⟩

/-- What stands between wishes and changes the options by `g` does so to what they ask for, whether
    something closes the arguments or not. -/
theorem amended_between (between closing : List String) {g : Options → Options} {waiting : Bool} (hxs : Wishes xs)
    (hys : Wishes ys)
    (hreads : ∀ o, reading (between ++ (ys ++ closing)) ⟨o, true, []⟩ = reading (ys ++ closing) ⟨g o, waiting, []⟩)
    (hcloses : ∀ o, ∃ w, reading closing ⟨o, waiting, []⟩ = .ok ⟨o, w, []⟩)
    (hg : ∀ f, Tunes f → ∀ o, f (g o) = g (f o)) (depth : Int) :
    Amended g (Options.ofArguments depth (xs ++ ys))
      (Options.ofArguments depth (xs ++ (between ++ (ys ++ closing)))) := by
  cases hxs.settles with
  | refused hx => exact amended_of_refused (hx _ _) (hx _ _)
  | tunes f hf hx =>
    have hwishes : reading (xs ++ ys) (begun depth) = reading ys ⟨f (.initial depth), true, []⟩ := hx _ _
    have hall : reading (xs ++ (between ++ (ys ++ closing))) (begun depth) =
        reading (ys ++ closing) ⟨g (f (.initial depth)), waiting, []⟩ := (hx _ _).trans (hreads _)
    cases hys.settles with
    | refused hy => exact amended_of_refused (hwishes ▸ refused_alone hy _) (hall ▸ hy _ _)
    | tunes f' hf' hy =>
      obtain ⟨w, hclosed⟩ := hcloses (f' (g (f (.initial depth))))
      rw [reading_alone hy] at hwishes
      rw [hy] at hall
      rw [ofArguments_of_ok hwishes rfl, ofArguments_of_ok (hall.trans hclosed) rfl]
      show Amended g (.ok (f' (f (.initial depth)))) (.ok (f' (g (f (.initial depth)))))
      rw [hg f' hf']
      exact .taken _

theorem GivesText.amended (h : GivesText text xs arguments) (depth : Int) :
    Amended (fun o => { o with expression := some text }) (Options.ofArguments depth xs)
      (Options.ofArguments depth arguments) := by
  -- with nothing behind what gives the text
  have hclosed (o : Options) : ∃ w, reading [] ⟨o, false, []⟩ = .ok ⟨o, w, []⟩ := ⟨false, rfl⟩
  have hlast {between : List String} (hxs : Wishes xs)
      (hreads : ∀ o, reading between ⟨o, true, []⟩ = reading [] ⟨{ o with expression := some text }, false, []⟩) :
      Amended (fun o => { o with expression := some text }) (Options.ofArguments depth xs)
        (Options.ofArguments depth (xs ++ between)) := by
    have hbetween := amended_between between [] hxs .nil (by simpa using hreads) hclosed
      (fun f hf o => hf.expression o _) depth
    simpa using hbetween
  cases h with
  | @among xs ys hxs hys hplain =>
    have hreads (o : Options) : reading ([text] ++ (ys ++ [])) ⟨o, true, []⟩ =
        reading (ys ++ []) ⟨{ o with expression := some text }, false, []⟩ := by
      rw [List.append_nil]
      exact reading_text hplain hys rfl
    have hamong := amended_between [text] [] hxs hys hreads hclosed (fun f hf o => hf.expression o _) depth
    rwa [List.append_nil] at hamong
  | before hxs hplain =>
    refine hlast hxs fun o => ?_
    unfold reading
    rw [classifyAll_of_classify hplain]
    rfl
  | behind hxs => exact hlast hxs fun o => rfl

theorem GivesNone.amended (h : GivesNone xs arguments) (depth : Int) :
    Amended id (Options.ofArguments depth xs) (Options.ofArguments depth arguments) := by
  cases h with
  | closed hxs hzs =>
    have hbehind := amended_between [] _ hxs .nil (fun o => rfl) (reading_closing hzs) (fun f _ o => rfl) depth
    rwa [List.append_nil] at hbehind

theorem GivesFile.amended (h : GivesFile path xs arguments) (depth : Int) :
    Amended (fun o => { o with file := Taken.given path }) (Options.ofArguments depth xs)
      (Options.ofArguments depth arguments) := by
  cases h with
  | attached hxs hys hzs ha =>
    exact amended_between [_] _ hxs hys (fun o => reading_attached ha rfl rfl _) (reading_closing hzs)
      (fun f hf o => hf.file o _) depth
  | apart hxs hys hzs ha hplain =>
    exact amended_between [_, _] _ hxs hys (fun o => reading_apart ha rfl hplain rfl _) (reading_closing hzs)
      (fun f hf o => hf.file o _) depth

/-- Wishes that are taken say nothing of where the source is. -/
theorem Wishes.taken (h : Wishes xs) {o : Options} (ho : Options.ofArguments depth xs = .ok o) :
    o.expression = none ∧ o.file = none ∧ o.tokens = false := by
  cases h.settles with
  | refused hx =>
    obtain ⟨r, hr⟩ := ofArguments_of_refused (refused_alone hx (begun depth))
    rw [hr] at ho
    cases ho
  | tunes f hf hx =>
    rw [ofArguments_of_ok (reading_alone hx (begun depth)) rfl] at ho
    obtain rfl := Except.ok.inj ho
    have hexpression := congrArg Options.expression (hf.expression (.initial depth) none)
    have hfile := congrArg Options.file (hf.file (.initial depth) none)
    exact ⟨hexpression, hfile, hf.tokens _⟩

end LambdaSyntax.Command
