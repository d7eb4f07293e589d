/-
  LambdaSyntax.Proofs.Failures — when the command ends without a report.

  A report `Explains` itself when its status is 0, 1 or 2 and, unless that is 0, its errors end with one
  of the diagnostics that the command has. All reports do (`readSource_explains`, `source_comes`), on any host.
  What cannot be opened is reported too, as the system gives a reason for it. But bytes that are
  opened and are not UTF-8 are no fault of the system, and end the command without a report. So with
  arguments that hold no U+0000 the command ends with a report exactly when it has a number for the
  depth, and what it then opens is text (`run_explains_iff`).
-/

import LambdaSyntax.Proofs.Paths
import LambdaSyntax.Proofs.Report

namespace LambdaSyntax

variable {bytes input : List UInt8} {fs : Files}

/-- Bytes that are no text are no text to the reader either. -/
theorem decodeText_cases (bytes : List UInt8) :
    (IsText bytes ∧ ∃ text, decodeText bytes = .ok text) ∨
      ¬IsText bytes ∧ ∃ bad, decodeText bytes = .error (.undecodable bad) := by
  cases h : Text.Utf8.decode bytes with
  | ok cs => exact .inl ⟨⟨cs, Text.Utf8.decode_eq_ok_iff.mp h⟩, _, by rw [decodeText, h]⟩
  | error bad =>
    refine .inr ⟨?_, bad, by rw [decodeText, h]⟩
    rintro ⟨cs, rfl⟩
    rw [Text.Utf8.decode_encode] at h
    cases h

namespace Command

variable {host : Host} {o : Options} {depth : Int} {s : Source} {r : Report} {around : Surroundings}

/-! ## Reports that explain themselves -/

/-- What the command has to say of a failure. -/
inductive IsDiagnostic (host : Host) : String → Prop
  | lexical (e : LexicalError) : IsDiagnostic host e.message
  | grammatical (e : SyntaxError) : IsDiagnostic host e.message
  | tooDeep (name : String) : IsDiagnostic host ("error: syntax tree of " ++ name ++ " is too deep to encode as JSON\n")
  | cannotRead (path words : String) : IsDiagnostic host (cannotRead path words).errors
  | refused (r : Refusal) : IsDiagnostic host (refusal host r).errors

theorem IsDiagnostic.ne_empty {d : String} (h : IsDiagnostic host d) : d ≠ "" := by
  cases h with
  | lexical e => exact render_ne_empty _
  | grammatical e => exact render_ne_empty _
  | tooDeep name => simp
  | cannotRead path words => simp [Command.cannotRead, failure]
  | refused r => simp [refusal]

/-- The status is 0, 1 or 2, and unless it is 0 the errors are a diagnostic behind the log. -/
structure Report.Explains (r : Report) (host : Host) : Prop where
  status : r.status = 0 ∨ r.status = 1 ∨ r.status = 2
  errors : r.status ≠ 0 → ∃ log d, IsDiagnostic host d ∧ d ≠ "" ∧ r.errors = log ++ d

theorem success_explains (output : String) : (success output).Explains host := ⟨.inl rfl, fun h => absurd rfl h⟩

theorem failure_explains {errors : String} (h : IsDiagnostic host errors) : (failure errors).Explains host :=
  ⟨.inr (.inl rfl), fun _ => ⟨"", errors, h, h.ne_empty, by simp [failure]⟩⟩

theorem refusal_explains (r : Refusal) : (refusal host r).Explains host :=
  ⟨.inr (.inr rfl), fun _ => ⟨"", _, .refused r, (IsDiagnostic.refused r).ne_empty, by simp⟩⟩

theorem withLog_explains (h : r.Explains host) (log : String) : (withLog o log r).Explains host := by
  unfold withLog
  split
  · refine ⟨h.status, fun hstatus => ?_⟩
    obtain ⟨log', d, hd, hne, herrors⟩ := h.errors hstatus
    exact ⟨log ++ log', d, hd, hne, by simp [herrors, String.append_assoc]⟩
  · exact h

theorem readSource_explains (h : (readSource host o depth s).2 = .ok r) : r.Explains host := by
  apply readSource_cases h
  · exact fun output _ => success_explains output
  · exact fun e => failure_explains (.lexical e)
  · exact fun e => failure_explains (.grammatical e)
  · exact fun name => failure_explains (.tooDeep name)

/-! ## What is opened -/

/-- The bytes that the source is read from. -/
inductive Options.Opens (o : Options) (around : Surroundings) : List UInt8 → Prop
  | file {path : String} {bytes : List UInt8} : o.path? = some path → o.expression = none →
      around.bytesAt path = .ok bytes → Opens o around bytes
  | input : o.path? = none → o.expression = none → Opens o around around.input

theorem not_opens_expression {text : String} (h : o.expression = some text) : ¬o.Opens around bytes := by
  rintro (⟨-, hnone, -⟩ | ⟨-, hnone⟩) <;> rw [h] at hnone <;> cases hnone

theorem opens_file {path : String} (hpath : o.path? = some path) (h : o.Opens around bytes) :
    around.bytesAt path = .ok bytes := by
  cases h with
  | file hpath' _ hbytes =>
    rw [hpath] at hpath'
    exact Option.some.inj hpath' ▸ hbytes
  | input hnone _ =>
    rw [hpath] at hnone
    cases hnone

theorem opens_input (hpath : o.path? = none) (h : o.Opens around bytes) : bytes = around.input := by
  cases h with
  | file hsome _ _ =>
    rw [hpath] at hsome
    cases hsome
  | input _ _ => rfl

/-- What comes of looking for the source: it is read from text or from no bytes at all, or it cannot be had
    and a report says so, or its bytes are no text. -/
inductive Comes (host : Host) (o : Options) (around : Surroundings) : Except Outcome Source → Prop
  | read (s : Source) : (∀ bytes, o.Opens around bytes → IsText bytes) → Comes host o around (.ok s)
  | reported {r : Report} : r.Explains host → (∀ bytes, ¬o.Opens around bytes) → Comes host o around (.error (.done r))
  | failed {bytes : List UInt8} (f : Failure) : o.Opens around bytes → ¬IsText bytes →
      Comes host o around (.error (.failed f))

theorem source_comes (host : Host) (fs : Files) (input : List UInt8) (hpath : ∀ path ∈ o.path?, '\x00' ∉ path.toList) :
    Comes host o ⟨input, fs.bytesAt⟩ (source host o ⟨input, fs.bytesAt⟩) := by
  unfold source
  cases hp : o.path? with
  | none =>
    cases he : o.expression with
    | some text => exact .read _ fun bytes h => absurd h (not_opens_expression he)
    | none =>
      have hopens : o.Opens ⟨input, fs.bytesAt⟩ input := .input hp he
      rcases decodeText_cases input with ⟨htext, text, hdecode⟩ | ⟨htext, bad, hdecode⟩
      · simp only [hdecode]
        exact .read _ fun bytes h => opens_input hp h ▸ htext
      · simp only [hdecode]
        exact .failed _ hopens htext
  | some path =>
    cases he : o.expression with
    | some text => exact .reported (refusal_explains _) fun bytes => not_opens_expression he
    | none =>
      unfold fileSource
      rcases fs.bytesAt_cases (hpath path hp) with ⟨bytes, hbytes, -⟩ | ⟨f, hf, hsystem⟩
      · have hopens : o.Opens ⟨input, fs.bytesAt⟩ bytes := .file hp he hbytes
        rcases decodeText_cases bytes with ⟨htext, text, hdecode⟩ | ⟨htext, bad, hdecode⟩
        · simp only [hbytes, Except.bind, hdecode]
          refine .read _ fun bytes' h => ?_
          rw [← Except.ok.inj (hbytes.symm.trans (opens_file hp h))]
          exact htext
        · simp only [hbytes, Except.bind, hdecode]
          exact .failed _ hopens htext
      · obtain ⟨fault, hfault⟩ := Option.isSome_iff_exists.mp hsystem
        simp only [hf, Except.bind, reported, hfault, Option.map_some]
        refine .reported (failure_explains (.cannotRead path fault.2)) fun bytes h => ?_
        cases hf.symm.trans (opens_file hp h)

/-! ## The command -/

/-- There is a number for the depth, and if it is one to read with, what is opened is text. -/
def Options.Readable (o : Options) (around : Surroundings) : Prop :=
  ∃ depth, o.maxDepth = some depth ∧ (1 ≤ depth → ∀ bytes, o.Opens around bytes → IsText bytes)

theorem perform_explains_iff (host : Host) (hshort : ∀ depth ∈ o.maxDepth, Text.isShort depth = true)
    (hpath : ∀ path ∈ o.path?, '\x00' ∉ path.toList) :
    (∃ r, perform host o ⟨input, fs.bytesAt⟩ = .done r ∧ r.Explains host) ↔ o.Readable ⟨input, fs.bytesAt⟩ := by
  have hcomes := source_comes host fs input hpath
  unfold Options.Readable
  cases hdepth : o.maxDepth with
  | none => simp [perform, hdepth]
  | some depth =>
    by_cases hlt : depth < 1
    · have hnot : ¬1 ≤ depth := by omega
      simp only [perform, hdepth, if_pos hlt]
      exact ⟨fun _ => ⟨depth, rfl, fun h => absurd h hnot⟩, fun _ => ⟨_, rfl, refusal_explains _⟩⟩
    · have hle : 1 ≤ depth := by omega
      cases hsource : source host o ⟨input, fs.bytesAt⟩ with
      | ok s =>
        rw [hsource] at hcomes
        cases hcomes with
        | read s htext =>
          obtain ⟨r, hr⟩ := readSource_ok host o s (hshort depth hdepth)
          refine ⟨fun _ => ⟨depth, rfl, fun _ => htext⟩, fun _ => ?_⟩
          exact ⟨_, perform_of_report hdepth hle hsource hr, withLog_explains (readSource_explains hr) _⟩
      | error outcome =>
        have hperform : perform host o ⟨input, fs.bytesAt⟩ = outcome := by
          simp only [perform, hdepth, if_neg hlt, hsource]
        rw [hsource] at hcomes
        rw [hperform]
        cases hcomes with
        | reported hr hopens =>
          exact ⟨fun _ => ⟨depth, rfl, fun _ bytes h => absurd h (hopens bytes)⟩, fun _ => ⟨_, rfl, hr⟩⟩
        | failed f hopens htext =>
          constructor
          · rintro ⟨r, ⟨⟩, -⟩
          · rintro ⟨depth', hdepth', hall⟩
            obtain rfl := Option.some.inj hdepth'
            exact absurd (hall hle _ hopens) htext

/-- Where everything is text and no argument leaves the depth open, the options are readable. -/
theorem readable_of_texts {arguments : List String} (htaken : Options.ofArguments depth arguments = .ok o)
    (hpath : ∀ path ∈ o.path?, '\x00' ∉ path.toList) (hclosed : ∀ a ∈ arguments, ¬LeavesOpen a) (hinput : IsText input)
    (hfiles : fs.HoldsTexts) : o.Readable ⟨input, fs.bytesAt⟩ := by
  cases hdepth : o.maxDepth with
  | none =>
    obtain ⟨a, ha, hopens⟩ := ofArguments_open htaken hdepth
    exact absurd hopens (hclosed a ha)
  | some n =>
    refine ⟨n, hdepth, fun _ bytes hopens => ?_⟩
    cases hopens with
    | input => exact hinput
    | @file path bytes hp _ hbytes =>
      rcases fs.bytesAt_cases (hpath path hp) with ⟨bytes', hread, e, he, hfile⟩ | ⟨f, hf, -⟩
      · rw [← Except.ok.inj (hread.symm.trans hbytes)]
        exact hfiles e he bytes' hfile
      · cases hf.symm.trans hbytes

/-- With arguments that hold no U+0000, whatever the input and the files are, the command ends with a report
    that explains itself exactly if the options that it takes, if it takes any, are readable; and they are where
    everything is text and no argument leaves the depth open. -/
theorem run_explains_iff {arguments : List String} (host : Host) (input : List UInt8) (fs : Files)
    (harguments : ∀ a ∈ arguments, '\x00' ∉ a.toList) :
    ((∃ r, run host arguments ⟨input, fs.bytesAt⟩ = .done r ∧ r.Explains host) ↔
      ∀ o, Options.ofArguments Parse.defaultLimit arguments = .ok o → o.Readable ⟨input, fs.bytesAt⟩) ∧
    ((∀ a ∈ arguments, ¬LeavesOpen a) → IsText input → fs.HoldsTexts →
      ∀ o, Options.ofArguments Parse.defaultLimit arguments = .ok o → o.Readable ⟨input, fs.bytesAt⟩) := by
  have hpath {o : Options} (htaken : Options.ofArguments Parse.defaultLimit arguments = .ok o) :
      ∀ path ∈ o.path?, '\x00' ∉ path.toList := by
    intro path hpath hnul
    obtain ⟨a, ha, hsubset⟩ := ofArguments_file htaken (Option.filter_eq_some_iff.mp hpath).1
    exact harguments a ha (hsubset hnul)
  refine ⟨?_, fun hclosed hinput hfiles o htaken => readable_of_texts htaken (hpath htaken) hclosed hinput hfiles⟩
  unfold run
  cases htaken : Options.ofArguments Parse.defaultLimit arguments with
  | error stop =>
    cases stop with
    | help => exact ⟨fun _ _ ho => (nomatch ho), fun _ => ⟨_, rfl, success_explains _⟩⟩
    | refused r => exact ⟨fun _ _ ho => (nomatch ho), fun _ => ⟨_, rfl, refusal_explains r⟩⟩
  | ok o =>
    have hperform : (∃ r, perform host o ⟨input, fs.bytesAt⟩ = .done r ∧ r.Explains host) ↔
        o.Readable ⟨input, fs.bytesAt⟩ :=
      perform_explains_iff host (ofArguments_short htaken) (hpath htaken)
    exact hperform.trans ⟨fun h o' ho' => Except.ok.inj ho' ▸ h, fun h => h o rfl⟩

theorem run_explains_directory :
    (∃ r, run ⟨"usage\n", "", 1000⟩ ["-v", "--max=1", "-f", "d"]
      ⟨[0xff], (Files.ofList [("d/x", .file [0xff])]).bytesAt⟩ = .done r ∧ r.Explains ⟨"usage\n", "", 1000⟩) ∧
    Options.ofArguments Parse.defaultLimit ["-v", "--max=1", "-f", "d"] =
      .ok ⟨none, some "d", false, false, false, some 1, true⟩ := by
  have htaken : Options.ofArguments Parse.defaultLimit ["-v", "--max=1", "-f", "d"] =
      .ok ⟨none, some "d", false, false, false, some 1, true⟩ := rfl
  have harguments : ∀ a ∈ ["-v", "--max=1", "-f", "d"], '\x00' ∉ a.toList := by simp
  refine ⟨(run_explains_iff _ [0xff] (Files.ofList [("d/x", .file [0xff])]) harguments).1.mpr ?_, htaken⟩
  intro o ho
  obtain rfl := Except.ok.inj (htaken.symm.trans ho)
  refine ⟨1, rfl, fun _ bytes hopens => ?_⟩
  have hpath : (⟨none, some "d", false, false, false, some 1, true⟩ : Options).path? = some "d" := by
    simp [Options.path?]
  cases opens_file hpath hopens

/-- A file that is not UTF-8 ends the command without a report. -/
theorem run_undecodable : (∀ a ∈ ["-f", "p"], '\x00' ∉ a.toList) ∧
    ∀ host r, run host ["-f", "p"] ⟨[], (Files.ofList [("p", .file [0xff])]).bytesAt⟩ ≠ .done r := by
  refine ⟨by simp, fun host r hr => ?_⟩
  have hrun : run host ["-f", "p"] ⟨[], (Files.ofList [("p", .file [0xff])]).bytesAt⟩ =
      .failed (.unreadable "p" (.undecodable ⟨.invalidStart, 0xff, 0, 1⟩)) := rfl
  rw [hrun] at hr
  cases hr

end Command

end LambdaSyntax
