/-
  LambdaSyntax.Proofs.Report — what the command reports, whatever it is asked.

  A report is `Consistent` when its status is 0, 1 or 2, something is printed exactly with status
  0, and there are errors exactly with the others. All the reports are (`readSource_consistent`,
  `source_cases`), so nothing is printed before a failure and no failure is silent. What the report
  on a source says about it is `Report.Answers`: its status is 0 exactly when the source is read as
  it is asked, and else its errors are those of the first fault (`readSource_answers`). There is a report
  on every source, if the depth can be written (`readSource_ok`).

  For arguments that are taken and texts as files and as input, the command ends with such a report
  exactly when it has a number for the depth (`run_reports_iff`): with none there is nothing to
  compare, and it fails (`run_open_depth`). The host is any.
-/

import LambdaSyntax.Command.Run
import LambdaSyntax.Proofs.Arguments
import LambdaSyntax.Proofs.Coverage
import LambdaSyntax.Proofs.Files
import LambdaSyntax.Proofs.Limit

namespace LambdaSyntax.Command

variable {host : Host} {o : Options} {depth : Int} {s : Source} {around : Surroundings} {r : Report}

/-! ## Reports -/

structure Report.Consistent (r : Report) : Prop where
  status : r.status = 0 ∨ r.status = 1 ∨ r.status = 2
  output : r.output ≠ "" ↔ r.status = 0
  errors : r.errors ≠ "" ↔ r.status ≠ 0

theorem success_consistent {output : String} (h : output ≠ "") : (success output).Consistent := by
  constructor <;> simp [success, h]

theorem failure_consistent {errors : String} (h : errors ≠ "") : (failure errors).Consistent := by
  constructor <;> simp [failure, h]

theorem refusal_consistent (host : Host) (r : Refusal) : (refusal host r).Consistent := by
  constructor <;> simp [refusal]

theorem render_ne_empty (d : Diagnostic) : d.render ≠ "" := by
  simp [Diagnostic.render]

theorem cannotRead_consistent (path words : String) : (cannotRead path words).Consistent :=
  failure_consistent (by simp)

/-- There is always a token to print: the end. -/
theorem tokenLines_ne_empty (file source : String) :
    String.join ((Scan.ofText file source).tokens.map tokenLine) ≠ "" := by
  obtain ⟨l, htokens, -⟩ := (Scan.cuts_scanFrom file .origin source.toList).closed
  rw [Scan.ofText, htokens]
  simp [tokenLine]

/-! ## The report on a source -/

theorem readSource_of_errors {e : LexicalError} {es : List LexicalError} (h : (Scan.ofText s.name s.text).errors = e :: es) :
    (readSource host o depth s).2 = .ok (failure e.message) := by
  simp [readSource, h]

theorem readSource_of_tokens (h : (Scan.ofText s.name s.text).errors = []) (ho : o.tokens = true) :
    (readSource host o depth s).2 = .ok (success (String.join ((Scan.ofText s.name s.text).tokens.map tokenLine))) := by
  simp [readSource, h, ho]

theorem readSource_of_tree (h : (Scan.ofText s.name s.text).errors = []) (ho : o.tokens = false) :
    (readSource host o depth s).2 = (readTree host o depth s.name (Scan.ofText s.name s.text).tokens).2 := by
  simp [readSource, h, ho]

theorem reporting_ok {f : String → Report} {text? : Option String} :
    reporting f text? = .ok r ↔ ∃ text, text? = some text ∧ f text = r := by
  cases text? <;> simp [reporting]

/-- The report on a tree is the tree in one of its forms, or that it is too high for JSON. -/
theorem printTree_cases {P : Report → Prop} {name : String} {t : Tree Span} (h : printTree host o name t = .ok r)
    (hprinted : (o.json = true → t.height ≤ host.jsonHeight) → ∀ text, P (printLine text))
    (htooDeep : o.json = true → ¬t.height ≤ host.jsonHeight →
      P (failure ("error: syntax tree of " ++ name ++ " is too deep to encode as JSON\n"))) : P r := by
  unfold printTree at h
  split at h
  · rename_i hjson
    obtain ⟨text, -, rfl⟩ := reporting_ok.mp h
    exact hprinted (fun htrue => nomatch hjson.symm.trans htrue) text
  · rename_i hjson
    split at h
    · rename_i hheight
      obtain ⟨text, -, rfl⟩ := reporting_ok.mp h
      exact hprinted (fun _ => hheight) text
    · rename_i hheight
      cases h
      exact htooDeep (Bool.not_eq_false _ ▸ hjson) hheight

/-- The report on tokens is that on their tree, or says why there is none. -/
theorem readTree_cases {P : Report → Prop} {name : String} {ts : List Token}
    (h : (readTree host o depth name ts).2 = .ok r)
    (hread : ∀ t, readTokens (goal o) depth ts = .ok t → printTree host o name t = .ok r → P r)
    (hrefused : ∀ e, readTokens (goal o) depth ts = .error e → P (failure e.message)) : P r := by
  unfold readTree at h
  cases hread' : readTokens (goal o) depth ts with
  | ok t =>
    rw [hread'] at h
    exact hread t hread' h
  | error e =>
    rw [hread'] at h
    obtain ⟨text, htext, rfl⟩ := reporting_ok.mp h
    rw [SyntaxError.message?_eq htext]
    exact hrefused e hread'

/-- The report on a source prints something, or is one of three failures. -/
theorem readSource_cases {P : Report → Prop} (h : (readSource host o depth s).2 = .ok r)
    (hprinted : ∀ output, output ≠ "" → P (success output)) (hlexical : ∀ e : LexicalError, P (failure e.message))
    (hgrammatical : ∀ e : SyntaxError, P (failure e.message))
    (htooDeep : ∀ name, P (failure ("error: syntax tree of " ++ name ++ " is too deep to encode as JSON\n"))) :
    P r := by
  cases he : (Scan.ofText s.name s.text).errors with
  | cons e es =>
    rw [readSource_of_errors he] at h
    cases h
    exact hlexical e
  | nil =>
    cases ho : o.tokens with
    | true =>
      rw [readSource_of_tokens he ho] at h
      cases h
      exact hprinted _ (tokenLines_ne_empty _ _)
    | false =>
      rw [readSource_of_tree he ho] at h
      refine readTree_cases h (fun t _ hprint => ?_) fun e _ => hgrammatical e
      exact printTree_cases hprint (fun _ text => hprinted _ (by simp)) fun _ _ => htooDeep s.name

theorem readSource_consistent (h : (readSource host o depth s).2 = .ok r) : r.Consistent := by
  apply readSource_cases h
  · exact fun output => success_consistent
  · exact fun e => failure_consistent (render_ne_empty _)
  · exact fun e => failure_consistent (render_ne_empty _)
  · exact fun name => failure_consistent (by simp)

theorem printTree_ok {t : Tree Span} (host : Host) (o : Options) (name : String) (ht : t.isShort = true) :
    ∃ r, printTree host o name t = .ok r := by
  rw [printTree, Tree.printed?_of_short ht, Tree.json?_toRecord ht]
  split
  · exact ⟨_, rfl⟩
  split <;> exact ⟨_, rfl⟩

/-- There is a report on every source, unless the depth is one that cannot be written. -/
theorem readSource_ok (host : Host) (o : Options) (s : Source) (hdepth : Text.isShort depth = true) :
    ∃ r, (readSource host o depth s).2 = .ok r := by
  cases he : (Scan.ofText s.name s.text).errors with
  | cons e es => exact ⟨_, readSource_of_errors he⟩
  | nil =>
    cases ho : o.tokens with
    | true => exact ⟨_, readSource_of_tokens he ho⟩
    | false =>
      rw [readSource_of_tree he ho, readTree]
      cases hread : readTokens (goal o) depth (Scan.ofText s.name s.text).tokens with
      | ok t => exact printTree_ok host o s.name (isShort_of_readTokens hread)
      | error e =>
        have hmessage : e.message? = some e.message := by
          refine SyntaxError.message?_of_short ?_
          rintro t p limit rfl
          rw [Parse.limit_of_tooDeep hread]
          exact hdepth
        exact ⟨failure e.message, reporting_ok.mpr ⟨_, hmessage, rfl⟩⟩

/-- The tree is read, and can be printed as it is asked. -/
def Prints (host : Host) (o : Options) (depth : Int) (ts : List Token) : Prop :=
  ∃ t, readTokens (goal o) depth ts = .ok t ∧ (o.json = true → t.height ≤ host.jsonHeight)

/-- What a report says about a source. -/
structure Report.Answers (r : Report) (host : Host) (o : Options) (depth : Int) (s : Source) : Prop where
  success_iff : r.status = 0 ↔ (Scan.ofText s.name s.text).errors = [] ∧
    (o.tokens = false → Prints host o depth (Scan.ofText s.name s.text).tokens)
  lexical : (Scan.ofText s.name s.text).errors ≠ [] → ∃ e ∈ (Scan.ofText s.name s.text).errors,
    (∀ d ∈ (Scan.ofText s.name s.text).errors, e.loc.offset ≤ d.loc.offset) ∧ r.errors = e.message
  grammatical : (Scan.ofText s.name s.text).errors = [] → o.tokens = false →
    ∀ e, readTokens (goal o) depth (Scan.ofText s.name s.text).tokens = .error e → r.errors = e.message

theorem printTree_status {name : String} {t : Tree Span} (h : printTree host o name t = .ok r) :
    r.status = 0 ↔ (o.json = true → t.height ≤ host.jsonHeight) := by
  refine printTree_cases (P := fun r => r.status = 0 ↔ _) h (fun hheight text => ?_) fun hjson hheight => ?_
  · exact ⟨fun _ => hheight, fun _ => rfl⟩
  · simp [failure, hjson, hheight]

theorem readTree_status {name : String} {ts : List Token} (h : (readTree host o depth name ts).2 = .ok r) :
    r.status = 0 ↔ Prints host o depth ts := by
  refine readTree_cases (P := fun r => r.status = 0 ↔ _) h (fun t hread hprint => ?_) fun e hread => ?_
  · simp [Prints, hread, printTree_status hprint]
  · simp [Prints, hread, failure]

/-- The host matters to nothing but JSON. -/
theorem readTree_host (host' : Host) (ho : o.json = false) (name : String) (ts : List Token) :
    readTree host o depth name ts = readTree host' o depth name ts := by
  simp [readTree, printTree, ho]

theorem readTree_errors {name : String} {ts : List Token} {e : SyntaxError}
    (h : (readTree host o depth name ts).2 = .ok r) (he : readTokens (goal o) depth ts = .error e) :
    r.errors = e.message := by
  refine readTree_cases (P := fun r => r.errors = _) h (fun t hread _ => ?_) fun e' hread => ?_
  · cases he.symm.trans hread
  · cases he.symm.trans hread
    rfl

/-- The errors of a scan come in the order of their places. -/
theorem first_leftmost {file source : String} {e : LexicalError} {es : List LexicalError}
    (h : (Scan.ofText file source).errors = e :: es) :
    ∀ d ∈ (Scan.ofText file source).errors, e.loc.offset ≤ d.loc.offset := by
  have hordered := ((Scan.cuts_scanFrom file .origin source.toList).accounts rfl).errors_ordered
  rw [← Scan.ofText, h, List.pairwise_cons] at hordered
  rw [h, List.forall_mem_cons]
  exact ⟨Int.le_refl _, fun d hd => Int.le_of_lt (hordered.1 d hd)⟩

theorem readSource_answers (hr : (readSource host o depth s).2 = .ok r) : r.Answers host o depth s := by
  cases h : (Scan.ofText s.name s.text).errors with
  | cons e es =>
    rw [readSource_of_errors h] at hr
    cases hr
    refine ⟨by simp [failure, h], ?_, by simp [h]⟩
    intro _
    exact ⟨e, by simp [h], first_leftmost h, rfl⟩
  | nil =>
    cases ho : o.tokens with
    | true =>
      rw [readSource_of_tokens h ho] at hr
      cases hr
      exact ⟨by simp [success, h, ho], by simp [h], by simp [ho]⟩
    | false =>
      rw [readSource_of_tree h ho] at hr
      refine ⟨by simp [readTree_status hr, h, ho], by simp [h], ?_⟩
      intro _ _ e he
      exact readTree_errors hr he

/-! ## Where the source comes from -/

/-- The one place that the options leave for the source, and what is read there. -/
inductive Options.Reads (o : Options) (around : Surroundings) : Source → Prop
  | argument {text : String} : o.path? = none → o.expression = some text → Reads o around ⟨"<argument>", text⟩
  | file {path : String} {cs : List Char} : o.path? = some path → o.expression = none →
      around.bytesAt path = .ok (Text.Utf8.encode cs) → Reads o around ⟨path, String.ofList (Text.lineFeeds cs)⟩
  | input {cs : List Char} : o.path? = none → o.expression = none → around.input = Text.Utf8.encode cs →
      Reads o around ⟨"<stdin>", String.ofList (Text.lineFeeds cs)⟩

theorem Options.Reads.source_eq (h : o.Reads around s) : source host o around = .ok s := by
  cases h with
  | argument hpath htext => simp only [source, hpath, htext]
  | file hpath htext hbytes =>
    simp only [source, hpath, htext, fileSource, hbytes, Except.bind, decodeText_encode]
  | input hpath htext hinput => simp only [source, hpath, htext, hinput, decodeText_encode]

/-- The source is read, or the command reports why it is not. -/
theorem source_cases (host : Host) {input : List UInt8} {fs : Files} (hinput : IsText input) (hfiles : fs.HoldsTexts)
    (hpath : ∀ path ∈ o.path?, '\x00' ∉ path.toList) :
    (∃ s, o.Reads ⟨input, fs.bytesAt⟩ s) ∨
      ∃ r, source host o ⟨input, fs.bytesAt⟩ = .error (.done r) ∧ r.Consistent := by
  cases hp : o.path? with
  | none =>
    cases he : o.expression with
    | some text => exact .inl ⟨_, .argument hp he⟩
    | none =>
      obtain ⟨cs, hcs⟩ := hinput
      exact .inl ⟨_, .input hp he hcs⟩
  | some path =>
    cases he : o.expression with
    | some text => exact .inr ⟨_, by simp only [source, hp, he], refusal_consistent host .twoSources⟩
    | none =>
      rcases fs.textAt_cases hfiles (hpath path (by simp [hp])) with ⟨cs, hbytes, -⟩ | ⟨f, hf, hsystem⟩
      · exact .inl ⟨_, .file hp he hbytes⟩
      · obtain ⟨fault, hfault⟩ := Option.isSome_iff_exists.mp hsystem
        refine .inr ⟨cannotRead path fault.2, ?_, cannotRead_consistent _ _⟩
        rw [Files.textAt] at hf
        simp only [source, hp, he, fileSource, hf, reported, hfault, Option.map_some]

/-! ## The command -/

theorem perform_of_report (hdepth : o.maxDepth = some depth) (h : 1 ≤ depth) (hs : source host o around = .ok s)
    (hr : (readSource host o depth s).2 = .ok r) :
    perform host o around = .done (withLog o (readSource host o depth s).1 r) := by
  have hlt : ¬depth < 1 := Int.not_lt.mpr h
  have hread : readSource host o depth s = ((readSource host o depth s).1, .ok r) := Prod.ext rfl hr
  rw [perform, hdepth]
  simp only [if_neg hlt, hs]
  rw [hread]

theorem perform_of_source (hverbose : o.verbose = false) (hdepth : o.maxDepth = some depth) (h : 1 ≤ depth)
    (hs : source host o around = .ok s) (hr : (readSource host o depth s).2 = .ok r) :
    perform host o around = .done r := by
  rw [perform_of_report hdepth h hs hr, withLog, hverbose]
  rfl

/-- With arguments that are taken, texts around and a number for the depth, the command ends with a
    consistent report, and if it has a source with an answer about that. -/
theorem run_reports {arguments : List String} {input : List UInt8} {fs : Files} (host : Host)
    (harguments : Options.ofArguments Parse.defaultLimit arguments = .ok o) (hverbose : o.verbose = false)
    (hdepth : o.maxDepth = some depth) (hinput : IsText input) (hfiles : fs.HoldsTexts)
    (hpath : ∀ path ∈ o.path?, '\x00' ∉ path.toList) :
    ∃ r, run host arguments ⟨input, fs.bytesAt⟩ = .done r ∧ r.Consistent ∧
      (1 ≤ depth → ∀ s, o.Reads ⟨input, fs.bytesAt⟩ s → r.Answers host o depth s) := by
  rw [run, harguments]
  simp only
  by_cases h : 1 ≤ depth
  · rcases source_cases host hinput hfiles hpath with ⟨s, hs⟩ | ⟨r, hr, hconsistent⟩
    · obtain ⟨r, hr⟩ := readSource_ok host o s (ofArguments_short harguments depth hdepth)
      refine ⟨r, perform_of_source hverbose hdepth h hs.source_eq hr, readSource_consistent hr, ?_⟩
      intro _ s' hs'
      have hsource : source host o ⟨input, fs.bytesAt⟩ = .ok s := hs.source_eq
      obtain rfl : s = s' := Except.ok.inj (hsource.symm.trans hs'.source_eq)
      exact readSource_answers hr
    · refine ⟨r, ?_, hconsistent, ?_⟩
      · have hlt : ¬depth < 1 := by omega
        simp [perform, hdepth, hlt, hr]
      · intro _ s hs
        rw [hs.source_eq] at hr
        cases hr
  · have hlt : depth < 1 := by omega
    exact ⟨refusal host .depthTooSmall, by simp [perform, hdepth, hlt], refusal_consistent host _,
      fun h' => absurd h' h⟩

/-- An open depth cannot be compared with the least one. -/
theorem run_of_open_depth {arguments : List String} (harguments : Options.ofArguments Parse.defaultLimit arguments = .ok o)
    (hdepth : o.maxDepth = none) : run host arguments around = .failed .openDepth := by
  simp only [run, harguments, perform, hdepth]

/-- The command ends with such a report exactly when it has a number for the depth, and it has one
    unless an argument left the depth open. -/
theorem run_reports_iff {arguments : List String} {input : List UInt8} {fs : Files} (host : Host)
    (harguments : Options.ofArguments Parse.defaultLimit arguments = .ok o) (hverbose : o.verbose = false)
    (hinput : IsText input) (hfiles : fs.HoldsTexts) (hpath : ∀ path ∈ o.path?, '\x00' ∉ path.toList) :
    ((∃ r, run host arguments ⟨input, fs.bytesAt⟩ = .done r ∧ r.Consistent ∧
      ∀ depth, o.maxDepth = some depth → 1 ≤ depth → ∀ s, o.Reads ⟨input, fs.bytesAt⟩ s → r.Answers host o depth s) ↔
        o.maxDepth.isSome) ∧
    ((∀ a ∈ arguments, ¬LeavesOpen a) → o.maxDepth.isSome) := by
  constructor
  · cases hdepth : o.maxDepth with
    | none =>
      rw [run_of_open_depth harguments hdepth]
      simp
    | some depth =>
      obtain ⟨r, hrun, hconsistent, hanswers⟩ := run_reports host harguments hverbose hdepth hinput hfiles hpath
      simp only [Option.isSome_some, iff_true]
      refine ⟨r, hrun, hconsistent, ?_⟩
      rintro _ ⟨⟩
      exact hanswers
  · intro hclosed
    cases hdepth : o.maxDepth with
    | none =>
      obtain ⟨a, ha, hopens⟩ := ofArguments_open harguments hdepth
      exact absurd hopens (hclosed a ha)
    | some depth => rfl

theorem run_reports_file : ∃ r,
    run ⟨"usage\n", "", 1000⟩ ["--max=2", "--json", "-fp"]
      ⟨[], (Files.ofList [("p", .file (Text.Utf8.encode "(é\r\n".toList))]).bytesAt⟩ = .done r ∧
    r.Consistent ∧
    r.Answers ⟨"usage\n", "", 1000⟩ ⟨none, some "p", false, false, true, some 2, false⟩ 2 ⟨"p", "(é\n"⟩ := by
  have harguments : Options.ofArguments Parse.defaultLimit ["--max=2", "--json", "-fp"] =
      .ok ⟨none, some "p", false, false, true, some 2, false⟩ := rfl
  have hfiles : (Files.ofList [("p", .file (Text.Utf8.encode "(é\r\n".toList))]).HoldsTexts := by
    intro e he bytes hbytes
    obtain rfl := List.mem_singleton.mp he
    cases hbytes
    exact ⟨_, rfl⟩
  have hreads : Options.Reads ⟨none, some "p", false, false, true, some 2, false⟩
      ⟨[], (Files.ofList [("p", .file (Text.Utf8.encode "(é\r\n".toList))]).bytesAt⟩ ⟨"p", "(é\n"⟩ := by
    have htext : String.ofList (Text.lineFeeds "(é\r\n".toList) = "(é\n" := rfl
    rw [← htext]
    exact .file rfl rfl rfl
  have hpath : ∀ path ∈ (⟨none, some "p", false, false, true, some 2, false⟩ : Options).path?, '\x00' ∉ path.toList := by
    intro path hpath
    obtain rfl : "p" = path := (by simpa [Options.path?] using hpath : "p" = path ∧ _).1
    decide
  obtain ⟨r, hrun, hconsistent, hanswers⟩ :=
    (run_reports_iff ⟨"usage\n", "", 1000⟩ harguments rfl ⟨[], rfl⟩ hfiles hpath).1.mpr rfl
  exact ⟨r, hrun, hconsistent, hanswers 2 rfl (by decide) _ hreads⟩

theorem run_open_depth : ∃ o, Options.ofArguments Parse.defaultLimit ["--max-depth=--", "1"] = .ok o ∧
    o.verbose = false ∧ IsText [] ∧ (Files.mk []).HoldsTexts ∧ (∀ path ∈ o.path?, '\x00' ∉ path.toList) ∧
    ∀ host r, run host ["--max-depth=--", "1"] ⟨[], (Files.mk []).bytesAt⟩ ≠ .done r := by
  have harguments : Options.ofArguments Parse.defaultLimit ["--max-depth=--", "1"] =
      .ok ⟨some "1", none, false, false, false, none, false⟩ := rfl
  refine ⟨_, harguments, rfl, ⟨[], rfl⟩, by simp [Files.HoldsTexts], by simp [Options.path?], ?_⟩
  intro host r hr
  rw [run_of_open_depth harguments rfl] at hr
  cases hr

end LambdaSyntax.Command
