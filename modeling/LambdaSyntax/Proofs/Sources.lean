/-
  LambdaSyntax.Proofs.Sources — which source an answer depends on.

  There are three sources: the expression, the file and the standard input. The path of the file is
  the last one that the arguments give with `--file` (`ofArguments_path`), and names a file unless it
  is empty or `--`. If it does, the command does not take an expression beside it, and looks at the
  file only; with an expression and no path it looks at nothing around it. But a path that names no
  file is as good as none: then the expression or the input is read in the place of the file that was
  asked for (`run_sources`).
-/

import LambdaSyntax.Command.Run
import LambdaSyntax.Proofs.Arguments
import LambdaSyntax.Proofs.Report

namespace LambdaSyntax.Command

variable {t t' : Taken} {s : Switch} {v path : String} {x : String × Class} {xs ys skipped : List (String × Class)}
  {host : Host} {o : Options} {around around' : Surroundings} {depth : Int} {arguments : List String}

/-! ## The path that is given -/

/-- The path that an argument gives with `--file`: what is attached there, or else the next argument. -/
def Class.path? (c : Class) (next : Option String) : Option String :=
  match c.valued? with
  | some (.file, attached) => attached.or next
  | _ => none

/-- The paths that are given, in their order. -/
def pathsGiven : List (String × Class) → List String
  | [] => []
  | (_, c) :: rest => (c.path? (rest.head?.map Prod.fst)).toList ++ pathsGiven rest

/-- The path that some arguments give: an option that is given again replaces its value. -/
def pathGiven? (arguments : List String) : Option String :=
  match classifyAll arguments with
  | .ok classified => (pathsGiven classified).getLast?
  | .error _ => none

/-- An empty path counts as none, and `--` is never a value. -/
def NamesFile (path : String) : Prop := path ≠ "" ∧ path ≠ "--"

theorem path?_of_plain {c : Class} {next : Option String} (h : ¬c.IsOption) : c.path? next = none := by
  cases c with
  | option name s attached => exact absurd ⟨name, s, attached, rfl⟩ h
  | _ => rfl

theorem pathsGiven_skipped (h : ∀ y ∈ skipped, ¬y.2.IsOption) : pathsGiven (skipped ++ ys) = pathsGiven ys := by
  induction skipped with
  | nil => rfl
  | cons y skipped ih =>
    obtain ⟨hy, hskipped⟩ := List.forall_mem_cons.mp h
    rw [List.cons_append, pathsGiven, path?_of_plain hy, ih hskipped]
    rfl

/-! ## Taking it -/

theorem value_other (h : t.value s v = .ok t') (hs : s ≠ .file) : t'.options.file = t.options.file := by
  unfold Taken.value at h
  split at h
  · exact absurd rfl hs
  · cases h
    rfl
  · split at h <;> cases h
    rfl
  · cases h
    rfl

/-- The file after an argument that gives some path or none. -/
def fileAfter (file : Option String) : Option String → Option String
  | none => file
  | some path => Taken.given path

/-- Taking the text `v` of the option that an argument asks for. -/
theorem value_file_after {c : Class} {w next : Option String} (hasked : c.valued? = some (s, w)) (hv : w.or next = some v)
    (hvalue : t.value s v = .ok t') : t'.options.file = fileAfter t.options.file (c.path? next) := by
  by_cases hs : s = .file
  · subst hs
    have hpath : c.path? next = some v := by simp only [Class.path?, hasked, hv]
    cases hvalue
    rw [hpath]
    rfl
  · have hpath : c.path? next = none := by
      rw [Class.path?, hasked]
      cases s with
      | file => exact absurd rfl hs
      | _ => rfl
    rw [hpath, value_other hvalue hs]
    rfl

theorem Valued.file (h : Valued x xs t t') :
    t'.options.file = fileAfter t.options.file (x.2.path? (xs.head?.map Prod.fst)) := by
  cases h with
  | @attached _ v _ s' w d t₁ hx hdemand hvalued hkeeps hvalue =>
    have hasked : x.2.valued? = some (s', some v) := by simp only [hx, Class.valued?, hdemand, hvalued]
    rw [← hkeeps.file]
    exact value_file_after hasked rfl hvalue
  | @next _ v _ s' w d t₁ _ hx hdemand hvalued hxs hkeeps hvalue =>
    have hasked : x.2.valued? = some (s', none) := by simp only [hx, Class.valued?, hdemand, hvalued]
    rw [← hkeeps.file, hxs]
    exact value_file_after hasked rfl hvalue

theorem fileAfter_append (file : Option String) (l m : List String) :
    fileAfter file (l ++ m).getLast? = fileAfter (fileAfter file l.getLast?) m.getLast? := by
  rw [List.getLast?_append]
  cases m.getLast? <;> rfl

/-- When the arguments are taken, the file is the last path that they give. -/
theorem take_file (h : take xs t = .ok t') : t'.options.file = fileAfter t.options.file (pathsGiven xs).getLast? := by
  refine take_induct (M := fun xs t => t'.options.file = fileAfter t.options.file (pathsGiven xs).getLast?) h rfl ?_
  intro x skipped ys t t₁ hskipped hchange hrest
  have hfirst : t₁.options.file = fileAfter t.options.file (x.2.path? ((skipped ++ ys).head?.map Prod.fst)) := by
    rcases hchange with ⟨hkeeps, hnone⟩ | hvalued
    · rw [Class.path?, hnone, hkeeps.file]
      rfl
    · exact hvalued.file
  rw [hrest, hfirst, pathsGiven, fileAfter_append, pathsGiven_skipped hskipped]
  cases x.2.path? ((skipped ++ ys).head?.map Prod.fst) <;> rfl

/-- The command looks for a file exactly if a path is given that names one. -/
theorem ofArguments_path (h : Options.ofArguments depth arguments = .ok o) :
    o.path? = some path ↔ pathGiven? arguments = some path ∧ NamesFile path := by
  obtain ⟨xs, t, hclassified, htake, rfl⟩ := ofArguments_ok h
  have hgiven : pathGiven? arguments = (pathsGiven xs).getLast? := by simp only [pathGiven?, hclassified]
  rw [Options.path?, Option.filter_eq_some_iff, take_file htake, hgiven]
  cases (pathsGiven xs).getLast? with
  | none => simp [fileAfter, begun, Options.initial]
  | some last =>
    simp only [fileAfter, Taken.given, NamesFile, ne_eq, decide_not, Option.some.injEq]
    grind

theorem ofArguments_no_path (h : Options.ofArguments depth arguments = .ok o)
    (hpath : ∀ path ∈ pathGiven? arguments, ¬NamesFile path) : o.path? = none := by
  refine Option.eq_none_iff_forall_ne_some.mpr fun path hsome => ?_
  obtain ⟨hgiven, hnames⟩ := (ofArguments_path h).mp hsome
  exact hpath path hgiven hnames

/-! ## What the answer depends on -/

/-- There is a depth to read with. -/
def Options.Deep (o : Options) : Prop := ∃ depth ∈ o.maxDepth, 1 ≤ depth

theorem perform_of_not_deep (h : ¬o.Deep) : perform host o around = perform host o around' := by
  unfold perform
  cases hdepth : o.maxDepth with
  | none => rfl
  | some depth =>
    have hlt : depth < 1 := Int.not_le.mp fun hle => h ⟨depth, hdepth, hle⟩
    simp only [if_pos hlt]

theorem perform_congr (h : source host o around = source host o around') :
    perform host o around = perform host o around' := by
  unfold perform
  rw [h]

theorem perform_of_refused {outcome : Outcome} (h : o.Deep) (hs : source host o around = .error outcome) :
    perform host o around = outcome := by
  obtain ⟨depth, hdepth, hle⟩ := h
  have hlt : ¬depth < 1 := Int.not_lt.mpr hle
  rw [perform, hdepth]
  simp only [if_neg hlt, hs]

theorem source_argument {text : String} (hpath : o.path? = none) (h : o.expression = some text) :
    source host o around = .ok ⟨"<argument>", text⟩ := by
  simp only [source, hpath, h]

theorem source_both {text : String} (hpath : o.path? = some path) (h : o.expression = some text) :
    source host o around = .error (.done (refusal host .twoSources)) := by
  simp only [source, hpath, h]

theorem source_file (hpath : o.path? = some path) (h : o.expression = none) :
    source host o around = fileSource around path := by
  simp only [source, hpath, h]

theorem failure_status (errors : String) : (failure errors).status ≠ 2 := by simp [failure]

/-- Status 2 is for arguments: what is read, or refused while it is read, has another one. -/
theorem readSource_status {s : Source} {r : Report} (h : (readSource host o depth s).2 = .ok r) : r.status ≠ 2 := by
  refine readSource_cases (P := fun r => r.status ≠ 2) h ?_ ?_ ?_ ?_
  · intro output _
    simp [success]
  · exact fun e => failure_status _
  · exact fun e => failure_status _
  · exact fun name => failure_status _

theorem perform_of_read {s : Source} (h : o.Deep) (hshort : ∀ n ∈ o.maxDepth, Text.isShort n = true)
    (hs : source host o around = .ok s) : ∃ r, perform host o around = .done r ∧ r.status ≠ 2 := by
  obtain ⟨depth, hdepth, hle⟩ := h
  obtain ⟨r, hr⟩ := readSource_ok host o s (hshort depth hdepth)
  refine ⟨_, perform_of_report hdepth hle hs hr, ?_⟩
  have hstatus := readSource_status hr
  unfold withLog
  split <;> exact hstatus

/-- The input without bytes and one that is no text are told apart. -/
theorem perform_sees_input (h : o.Deep) (hshort : ∀ n ∈ o.maxDepth, Text.isShort n = true) (hpath : o.path? = none)
    (hexpression : o.expression = none) (bytesAt : String → Except FileFault (List UInt8)) :
    perform host o ⟨[], bytesAt⟩ ≠ perform host o ⟨[0xff], bytesAt⟩ := by
  have hempty : source host o ⟨[], bytesAt⟩ = .ok ⟨"<stdin>", ""⟩ := by
    simp only [source, hpath, hexpression]
    rfl
  have hbad : ∃ f, source host o ⟨[0xff], bytesAt⟩ = .error (.failed f) := by
    simp only [source, hpath, hexpression]
    exact ⟨_, rfl⟩
  obtain ⟨r, hr, -⟩ := perform_of_read h hshort hempty
  obtain ⟨f, hf⟩ := hbad
  rw [hr, perform_of_refused h hf]
  intro hsame
  cases hsame

theorem run_eq (htaken : Options.ofArguments Parse.defaultLimit arguments = .ok o) :
    run host arguments around = perform host o around := by
  simp only [run, htaken]

section Given

variable (htaken : Options.ofArguments Parse.defaultLimit arguments = .ok o)
include htaken

/-- A path beside an expression is refused exactly if it names a file, unless the depth is refused first. -/
theorem both_refused_iff {text : String} (hgiven : pathGiven? arguments = some path) (htext : o.expression = some text) :
    (∀ around, ∃ r, perform host o around = .done r ∧ r.status = 2) ↔
      ∃ depth ∈ o.maxDepth, depth < 1 ∨ NamesFile path := by
  cases hdepth : o.maxDepth with
  | none =>
    simp only [perform, hdepth]
    constructor
    · intro hrefused
      obtain ⟨r, hr, -⟩ := hrefused ⟨[], fun _ => .error .missing⟩
      cases hr
    · rintro ⟨depth, ⟨⟩, -⟩
  | some depth =>
    by_cases hlt : depth < 1
    · simp only [perform, hdepth, if_pos hlt]
      exact ⟨fun _ => ⟨depth, rfl, .inl hlt⟩, fun _ _ => ⟨_, rfl, rfl⟩⟩
    have hdeep : o.Deep := ⟨depth, hdepth, Int.not_lt.mp hlt⟩
    by_cases hnames : NamesFile path
    · have hpath := (ofArguments_path htaken).mpr ⟨hgiven, hnames⟩
      refine ⟨fun _ => ⟨depth, rfl, .inr hnames⟩, fun _ around => ?_⟩
      exact ⟨_, perform_of_refused hdeep (source_both hpath htext), rfl⟩
    · have hpath := ofArguments_no_path htaken fun p hp => Option.some.inj (hgiven.symm.trans hp) ▸ hnames
      constructor
      · intro hrefused
        obtain ⟨r, hr, hstatus⟩ := hrefused ⟨[], fun _ => .error .missing⟩
        obtain ⟨r', hr', hstatus'⟩ := perform_of_read hdeep (ofArguments_short htaken) (source_argument hpath htext)
        exact absurd (Outcome.done.inj (hr.symm.trans hr') ▸ hstatus) hstatus'
      · rintro ⟨_, ⟨⟩, hlt' | hnames'⟩
        · exact absurd hlt' hlt
        · exact absurd hnames' hnames

/-- With a path alone the input does not matter exactly if the path names a file, or there is no depth to read with. -/
theorem input_unseen_iff (hgiven : pathGiven? arguments = some path) (htext : o.expression = none) :
    (∀ input input' bytesAt, perform host o ⟨input, bytesAt⟩ = perform host o ⟨input', bytesAt⟩) ↔
      ¬o.Deep ∨ NamesFile path := by
  by_cases hdeep : o.Deep
  · by_cases hnames : NamesFile path
    · have hpath := (ofArguments_path htaken).mpr ⟨hgiven, hnames⟩
      refine ⟨fun _ => .inr hnames, fun _ input input' bytesAt => perform_congr ?_⟩
      rw [source_file hpath htext, source_file hpath htext]
      rfl
    · have hpath := ofArguments_no_path htaken fun p hp => Option.some.inj (hgiven.symm.trans hp) ▸ hnames
      constructor
      · intro hsame
        exact absurd (hsame _ _ fun _ => .error .missing) (perform_sees_input hdeep (ofArguments_short htaken) hpath htext _)
      · rintro (hnot | hnames')
        · exact absurd hdeep hnot
        · exact absurd hnames' hnames
  · exact ⟨fun _ => .inl hdeep, fun _ input input' bytesAt => perform_of_not_deep hdeep⟩

/-- With an expression and no path nothing around matters. -/
theorem around_unseen {text : String} (hgiven : pathGiven? arguments = none) (htext : o.expression = some text) :
    perform host o around = perform host o around' := by
  have hpath := ofArguments_no_path htaken fun p hp => nomatch hgiven.symm.trans hp
  exact perform_congr ((source_argument hpath htext).trans (source_argument hpath htext).symm)

end Given

/-- Of arguments that are taken: a path beside an expression is refused with status 2 exactly if it names a file
    or the depth is a number below 1; with a path alone the answer is the same for every input exactly if the
    path names a file or there is no depth to read with; and with an expression alone it is the same whatever
    the input and the files are. -/
theorem run_sources (host : Host) (htaken : Options.ofArguments Parse.defaultLimit arguments = .ok o) :
    (∀ path ∈ pathGiven? arguments, o.expression.isSome →
      ((∀ around, ∃ r, run host arguments around = .done r ∧ r.status = 2) ↔
        ∃ depth ∈ o.maxDepth, depth < 1 ∨ NamesFile path)) ∧
    (∀ path ∈ pathGiven? arguments, o.expression = none →
      ((∀ input input' bytesAt, run host arguments ⟨input, bytesAt⟩ = run host arguments ⟨input', bytesAt⟩) ↔
        ¬o.Deep ∨ NamesFile path)) ∧
    (pathGiven? arguments = none → o.expression.isSome →
      ∀ around around', run host arguments around = run host arguments around') := by
  simp only [run_eq htaken]
  refine ⟨fun path hgiven hsome => ?_, fun path hgiven hnone => ?_, fun hgiven hsome around around' => ?_⟩
  · obtain ⟨text, htext⟩ := Option.isSome_iff_exists.mp hsome
    exact both_refused_iff htaken hgiven htext
  · exact input_unseen_iff htaken hgiven hnone
  · obtain ⟨text, htext⟩ := Option.isSome_iff_exists.mp hsome
    exact around_unseen htaken hgiven htext

/-- A path beside an expression, a path alone, and an expression alone. -/
theorem run_sources_given :
    (∀ host around, ∃ r, run host ["-vfp", "1"] around = .done r ∧ r.status = 2) ∧
    (∀ host input input' bytesAt,
      run host ["--fi=p", "--json"] ⟨input, bytesAt⟩ = run host ["--fi=p", "--json"] ⟨input', bytesAt⟩) ∧
    ∀ host around around', run host ["--type", "int"] around = run host ["--type", "int"] around' := by
  have hnames : NamesFile "p" := ⟨by decide, by decide⟩
  have hboth : Options.ofArguments Parse.defaultLimit ["-vfp", "1"] =
      .ok ⟨some "1", some "p", false, false, false, some Parse.defaultLimit, true⟩ := by decide +kernel
  have hfile : Options.ofArguments Parse.defaultLimit ["--fi=p", "--json"] =
      .ok ⟨none, some "p", false, false, true, some Parse.defaultLimit, false⟩ := by decide +kernel
  have hexpression : Options.ofArguments Parse.defaultLimit ["--type", "int"] =
      .ok ⟨some "int", none, true, false, false, some Parse.defaultLimit, false⟩ := by decide +kernel
  exact ⟨fun host => ((run_sources host hboth).1 "p" rfl rfl).mpr ⟨_, rfl, .inr hnames⟩,
    fun host => ((run_sources host hfile).2.1 "p" rfl rfl).mpr (.inr hnames),
    fun host => (run_sources host hexpression).2.2 rfl rfl⟩

/-- An empty path beside an expression is no usage error. -/
theorem run_empty_path :
    Options.ofArguments Parse.defaultLimit ["--file", "", "1"] =
      .ok ⟨some "1", some "", false, false, false, some Parse.defaultLimit, false⟩ ∧
    pathGiven? ["--file", "", "1"] = some "" ∧
    ∀ host around, run host ["--file", "", "1"] around = .done ⟨0, "1\n", ""⟩ := by
  have htaken : Options.ofArguments Parse.defaultLimit ["--file", "", "1"] =
      .ok ⟨some "1", some "", false, false, false, some Parse.defaultLimit, false⟩ := rfl
  have hread (host : Host) : (readSource host ⟨some "1", some "", false, false, false, some Parse.defaultLimit, false⟩
      Parse.defaultLimit ⟨"<argument>", "1"⟩).2 = .ok ⟨0, "1\n", ""⟩ := by
    rw [readSource_of_tree rfl rfl, readTree_host ⟨"", "", 0⟩ rfl]
    decide +kernel
  have hgiven : pathGiven? ["--file", "", "1"] = some "" := by decide +kernel
  refine ⟨htaken, hgiven, fun host around => ?_⟩
  rw [run_eq htaken, perform_of_source rfl rfl (by decide) (source_argument (by simp [Options.path?]) rfl) (hread host)]

end LambdaSyntax.Command
