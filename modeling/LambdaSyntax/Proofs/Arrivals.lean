/-
  LambdaSyntax.Proofs.Arrivals — the way a source comes in does not show in what is printed.

  A text that is read from a file or from the standard input has its line ends changed, and the three
  ways name the source differently in messages. Neither shows in the status and on
  standard output: a text with its line ends changed is cut into tokens that are alike, such tokens
  are read alike, and what is printed of a tree does not see its marks (`readSource_alike`). So
  the same wishes with the text as an argument, on standard input and in a file end alike
  (`run_arrivals`). But a path that names no file is not looked at (`perform_unnamed`): with
  `--file=--` the standard input is read, whatever the file `--` holds (`run_dashes_file`).
-/

import LambdaSyntax.Proofs.Fold
import LambdaSyntax.Proofs.LineEnds
import LambdaSyntax.Proofs.Report
import LambdaSyntax.Proofs.Sources
import LambdaSyntax.Proofs.Wishes

namespace LambdaSyntax.Command

variable {host : Host} {o : Options} {depth : Int} {s s' : Source} {r r' : Report}
  {around around' around'' : Surroundings}

/-- The reports differ in their errors at most. -/
structure Report.Alike (r r' : Report) : Prop where
  status : r.status = r'.status
  output : r.output = r'.output

/-- The command ends with reports that are alike, or without one for the same reason. -/
inductive Outcome.Alike : Outcome → Outcome → Prop
  | done {r r' : Report} : r.Alike r' → Alike (.done r) (.done r')
  | failed (f : Failure) : Alike (.failed f) (.failed f)

theorem Outcome.alike_refl (x : Outcome) : x.Alike x := by
  cases x with
  | done r => exact .done ⟨rfl, rfl⟩
  | failed f => exact .failed f

/-! ## One source in two ways -/

theorem failure_alike (errors errors' : String) : (failure errors).Alike (failure errors') := ⟨rfl, rfl⟩

theorem withLog_alike (h : r.Alike r') (log log' : String) : (withLog o log r).Alike (withLog o log' r') := by
  unfold withLog
  split
  · exact ⟨h.status, h.output⟩
  · exact h

theorem printTree_alike {t u : Tree Span} {name name' : String} (h : t.bare = u.bare)
    (hr : printTree host o name t = .ok r) (hr' : printTree host o name' u = .ok r') : r.Alike r' := by
  have hprinted := Tree.eq_of_bare (Tree.printed?_map fun _ : Span => ()) h
  have hheight := Tree.eq_of_bare (Tree.height_map fun _ : Span => ()) h
  have hrecord := Tree.eq_of_bare (Tree.toRecord_map fun _ : Span => ()) h
  rw [printTree] at hr hr'
  rw [hprinted, hheight, hrecord] at hr
  split at hr
  · rename_i hjson
    rw [if_pos hjson] at hr'
    cases hr.symm.trans hr'
    exact ⟨rfl, rfl⟩
  rename_i hjson
  rw [if_neg hjson] at hr'
  split at hr
  · rename_i hlow
    rw [if_pos hlow] at hr'
    cases hr.symm.trans hr'
    exact ⟨rfl, rfl⟩
  · rename_i hhigh
    rw [if_neg hhigh] at hr'
    cases hr
    cases hr'
    exact failure_alike _ _

theorem readTree_alike {ts us : List Token} {name name' : String} (h : List.Forall₂ Token.Like ts us)
    (hr : (readTree host o depth name ts).2 = .ok r) (hr' : (readTree host o depth name' us).2 = .ok r') :
    r.Alike r' := by
  have hread := sameReading_of_like (goal o) depth h
  refine readTree_cases (P := fun r => r.Alike r') hr (fun t ht hprint => ?_) fun e he => ?_
  · refine readTree_cases (P := fun r' => r.Alike r') hr' (fun u hu hprint' => ?_) fun e he => ?_
    · rw [ht, hu] at hread
      exact printTree_alike hread.1 hprint hprint'
    · rw [ht, he] at hread
      exact hread.elim
  · refine readTree_cases (P := fun r' => (failure e.message).Alike r') hr' (fun u hu _ => ?_) fun e' _ => ?_
    · rw [he, hu] at hread
      exact hread.elim
    · exact failure_alike _ _

/-- Two sources with the same chunks are reported alike where no tokens are printed. -/
theorem readSource_alike (ho : o.tokens = false) (h : Text.chunks s.text.toList = Text.chunks s'.text.toList)
    (hr : (readSource host o depth s).2 = .ok r) (hr' : (readSource host o depth s').2 = .ok r') : r.Alike r' := by
  obtain ⟨htokens, hstrays⟩ := ofText_chunks h s.name s'.name
  cases he : (Scan.ofText s.name s.text).errors with
  | cons e es =>
    cases he' : (Scan.ofText s'.name s'.text).errors with
    | cons e' es' =>
      rw [readSource_of_errors he] at hr
      rw [readSource_of_errors he'] at hr'
      cases hr
      cases hr'
      exact failure_alike _ _
    | nil => simp [Scan.strays, he, he'] at hstrays
  | nil =>
    cases he' : (Scan.ofText s'.name s'.text).errors with
    | cons e' es' => simp [Scan.strays, he, he'] at hstrays
    | nil =>
      rw [readSource_of_tree he ho] at hr
      rw [readSource_of_tree he' ho] at hr'
      exact readTree_alike htokens hr hr'

/-! ## The command -/

/-- The options with the source given in this way. -/
def Options.from (o : Options) (expression file : Option String) : Options :=
  { o with expression := expression, file := file }

theorem perform_alike {e e' p p' : Option String} (ho : o.tokens = false)
    (hshort : ∀ n ∈ o.maxDepth, Text.isShort n = true) (hs : source host (o.from e p) around = .ok s)
    (hs' : source host (o.from e' p') around' = .ok s') (h : Text.chunks s.text.toList = Text.chunks s'.text.toList) :
    (perform host (o.from e p) around).Alike (perform host (o.from e' p') around') := by
  cases hdepth : o.maxDepth with
  | none =>
    have hnone (e p : Option String) : (o.from e p).maxDepth = none := hdepth
    simp only [perform, hnone]
    exact .failed _
  | some depth =>
    have hsome (e p : Option String) : (o.from e p).maxDepth = some depth := hdepth
    by_cases hlt : depth < 1
    · simp only [perform, hsome, if_pos hlt]
      exact .done ⟨rfl, rfl⟩
    · have hle : 1 ≤ depth := Int.not_lt.mp hlt
      obtain ⟨r, hr⟩ := readSource_ok host (o.from e p) s (hshort depth hdepth)
      obtain ⟨r', hr'⟩ := readSource_ok host (o.from e' p') s' (hshort depth hdepth)
      rw [perform_of_report (hsome e p) hle hs hr, perform_of_report (hsome e' p') hle hs' hr']
      have halike : r.Alike r' := readSource_alike (o := o) ho h hr hr'
      exact .done (withLog_alike halike _ _)

/-- A path that names no file is as good as none. -/
theorem perform_unnamed {path : String} (e : Option String) (h : ¬NamesFile path) :
    perform host (o.from e (Taken.given path)) around = perform host (o.from e none) around := by
  have hpath : (o.from e (Taken.given path)).path? = none := by
    simp only [Options.path?, Options.from, Taken.given]
    by_cases hdashes : path = "--"
    · simp [hdashes]
    · have hempty : path = "" := by
        by_contra hne
        exact h ⟨hne, hdashes⟩
      simp [hempty]
  have hsource : source host (o.from e (Taken.given path)) around = source host (o.from e none) around := by
    simp only [source, hpath]
    rfl
  unfold perform
  rw [hsource]
  rfl

/-- The same text is an argument, the input, and in the file that is named. -/
theorem perform_arrivals {text path : String} (host : Host) (ho : o.tokens = false)
    (hshort : ∀ n ∈ o.maxDepth, Text.isShort n = true) (hinput : around'.input = Text.Utf8.encode text.toList)
    (hbytes : around''.bytesAt path = .ok (Text.Utf8.encode text.toList)) :
    (∀ around, (perform host (o.from (some text) none) around).Alike (perform host (o.from none none) around')) ∧
    (NamesFile path → (perform host (o.from none none) around').Alike
      (perform host (o.from none (Taken.given path)) around'')) := by
  have hargument (around : Surroundings) : source host (o.from (some text) none) around = .ok ⟨"<argument>", text⟩ := rfl
  have hstdin : source host (o.from none none) around' =
      .ok ⟨"<stdin>", String.ofList (Text.lineFeeds text.toList)⟩ :=
    Options.Reads.source_eq (.input rfl rfl hinput)
  have hchunks : Text.chunks text.toList = Text.chunks (String.ofList (Text.lineFeeds text.toList)).toList := by
    rw [String.toList_ofList, Text.chunks_lineFeeds]
  refine ⟨fun around => perform_alike ho hshort (hargument around) hstdin hchunks, fun hnames => ?_⟩
  have hgiven : Taken.given path = some path := if_neg hnames.2
  have hfile : source host (o.from none (Taken.given path)) around'' =
      .ok ⟨path, String.ofList (Text.lineFeeds text.toList)⟩ := by
    rw [hgiven]
    exact Options.Reads.source_eq (.file (by simp [Options.path?, Options.from, hnames.1]) rfl hbytes)
  exact perform_alike ho hshort hstdin hfile rfl

/-- With the same wishes a text ends alike as an argument, on standard input, and in a file that is named. With a
    path that names no file the command ends as it does with none. -/
theorem run_arrivals {text path : String} {wishes arguments arguments' arguments'' : List String} (host : Host)
    (hwishes : Wishes wishes) (htext : GivesText text wishes arguments) (hnone : GivesNone wishes arguments')
    (hfile : GivesFile path wishes arguments'') (hinput : around'.input = Text.Utf8.encode text.toList)
    (hbytes : around''.bytesAt path = .ok (Text.Utf8.encode text.toList)) :
    (∀ around, (run host arguments around).Alike (run host arguments' around')) ∧
    (NamesFile path → (run host arguments' around').Alike (run host arguments'' around'')) ∧
    (¬NamesFile path → ∀ around, (run host arguments'' around).Alike (run host arguments' around)) := by
  have hgiven := htext.amended Parse.defaultLimit
  have hleft := hnone.amended Parse.defaultLimit
  have hnamed := hfile.amended Parse.defaultLimit
  have htaken : ∀ o, Options.ofArguments Parse.defaultLimit wishes = .ok o →
      (o.expression = none ∧ o.file = none ∧ o.tokens = false) ∧ ∀ n ∈ o.maxDepth, Text.isShort n = true :=
    fun o ho => ⟨hwishes.taken ho, ofArguments_short ho⟩
  unfold run
  generalize Options.ofArguments Parse.defaultLimit wishes = x at hgiven hleft hnamed htaken
  generalize Options.ofArguments Parse.defaultLimit arguments = y at hgiven ⊢
  generalize Options.ofArguments Parse.defaultLimit arguments' = y' at hleft ⊢
  generalize Options.ofArguments Parse.defaultLimit arguments'' = y'' at hnamed ⊢
  -- the wishes are refused, and then with a source too, or their options differ in the source only
  cases hgiven with
  | refused r r₁ =>
    cases hleft with
    | refused r r₂ =>
      cases hnamed with
      | refused r r₃ => exact ⟨fun _ => .done ⟨rfl, rfl⟩, fun _ => .done ⟨rfl, rfl⟩, fun _ _ => .done ⟨rfl, rfl⟩⟩
  | taken o =>
    cases hleft with
    | taken o =>
      cases hnamed with
      | taken o =>
        obtain ⟨⟨hexpression, hpath, htokens⟩, hshort⟩ := htaken o rfl
        have ho : o = o.from none none := by
          cases o
          cases hexpression
          cases hpath
          rfl
        rw [ho]
        obtain ⟨hargument, hfile⟩ := perform_arrivals host htokens hshort hinput hbytes
        refine ⟨hargument, hfile, fun hunnamed around => ?_⟩
        show (perform host (o.from none (Taken.given path)) around).Alike (perform host (o.from none none) around)
        rw [perform_unnamed none hunnamed]
        exact Outcome.alike_refl _

theorem run_arrivals_lines :
    GivesText "f\r\n-x\r" ["--json", "--max", "9"] ["--json", "f\r\n-x\r", "--max", "9"] ∧
    GivesNone ["--json", "--max", "9"] ["--json", "--max", "9", "--"] ∧
    GivesFile "p" ["--json", "--max", "9"] ["-fp", "--json", "--max", "9"] ∧
    (run ⟨"", "", 1000⟩ ["--json", "f\r\n-x\r", "--max", "9"] ⟨[], (Files.mk []).bytesAt⟩).Alike
      (run ⟨"", "", 1000⟩ ["--json", "--max", "9", "--"]
        ⟨Text.Utf8.encode "f\r\n-x\r".toList, (Files.mk []).bytesAt⟩) ∧
    (run ⟨"", "", 1000⟩ ["--json", "--max", "9", "--"]
        ⟨Text.Utf8.encode "f\r\n-x\r".toList, (Files.mk []).bytesAt⟩).Alike
      (run ⟨"", "", 1000⟩ ["-fp", "--json", "--max", "9"]
        ⟨[], (Files.ofList [("p", .file (Text.Utf8.encode "f\r\n-x\r".toList))]).bytesAt⟩) := by
  have hdepth : Wishes ["--max", "9"] := .apart rfl .nil
  have hjson : Wishes ["--json"] := .flag rfl (.inr rfl) .nil
  have hboth : Wishes ["--json", "--max", "9"] := .flag rfl (.inr rfl) hdepth
  have htext : GivesText "f\r\n-x\r" ["--json", "--max", "9"] ["--json", "f\r\n-x\r", "--max", "9"] :=
    .among hjson hdepth rfl
  have hnone : GivesNone ["--json", "--max", "9"] ["--json", "--max", "9", "--"] := .closed hboth (.inr rfl)
  have hfile : GivesFile "p" ["--json", "--max", "9"] ["-fp", "--json", "--max", "9"] :=
    .attached .nil hboth (.inl rfl) rfl
  have hnames : NamesFile "p" := ⟨by decide, by decide⟩
  have hinput : Surroundings.input ⟨Text.Utf8.encode "f\r\n-x\r".toList, (Files.mk []).bytesAt⟩ =
      Text.Utf8.encode "f\r\n-x\r".toList := rfl
  have hbytes : Surroundings.bytesAt
      ⟨[], (Files.ofList [("p", .file (Text.Utf8.encode "f\r\n-x\r".toList))]).bytesAt⟩ "p" =
        .ok (Text.Utf8.encode "f\r\n-x\r".toList) := rfl
  have halike := run_arrivals ⟨"", "", 1000⟩ hboth htext hnone hfile hinput hbytes
  exact ⟨htext, hnone, hfile, halike.1 _, halike.2.1 hnames⟩

/-- A file of the name `--` is not read where its name is attached. -/
theorem run_dashes_file :
    GivesText "1" [] ["1"] ∧ GivesFile "--" [] ["--file=--"] ∧ "--" ≠ "" ∧
    (Files.ofList [("--", .file (Text.Utf8.encode "1".toList))]).bytesAt "--" = .ok (Text.Utf8.encode "1".toList) ∧
    ∀ host, run host ["1"] ⟨[], (Files.mk []).bytesAt⟩ = .done ⟨0, "1\n", ""⟩ ∧
      ¬(run host ["1"] ⟨[], (Files.mk []).bytesAt⟩).Alike
        (run host ["--file=--"] ⟨[], (Files.ofList [("--", .file (Text.Utf8.encode "1".toList))]).bytesAt⟩) := by
  have htext : GivesText "1" [] ["1"] := .among .nil .nil rfl
  have hfile : GivesFile "--" [] ["--file=--"] := .attached .nil .nil (.inl rfl) rfl
  refine ⟨htext, hfile, by decide, rfl, fun host => ?_⟩
  have htaken : Options.ofArguments Parse.defaultLimit ["1"] =
      .ok ⟨some "1", none, false, false, false, some Parse.defaultLimit, false⟩ := rfl
  have htaken' : Options.ofArguments Parse.defaultLimit ["--file=--"] =
      .ok ⟨none, none, false, false, false, some Parse.defaultLimit, false⟩ := rfl
  have hread : (readSource host ⟨some "1", none, false, false, false, some Parse.defaultLimit, false⟩
      Parse.defaultLimit ⟨"<argument>", "1"⟩).2 = .ok ⟨0, "1\n", ""⟩ := by
    rw [readSource_of_tree rfl rfl, readTree_host ⟨"", "", 0⟩ rfl]
    decide +kernel
  obtain ⟨r, hr⟩ := readSource_ok host ⟨none, none, false, false, false, some Parse.defaultLimit, false⟩
    ⟨"<stdin>", ""⟩ isShort_defaultLimit
  have hstatus : r.status = 1 := by
    rw [readSource_of_tree rfl rfl, readTree_host ⟨"", "", 0⟩ rfl] at hr
    have hone : (Except.map Report.status (Except.ok r) : Except Failure Nat) = .ok 1 := by
      rw [← hr]
      decide +kernel
    exact Except.ok.inj hone
  have hrun : run host ["1"] ⟨[], (Files.mk []).bytesAt⟩ = .done ⟨0, "1\n", ""⟩ := by
    rw [run_eq htaken, perform_of_source rfl rfl (by decide) (source_argument rfl rfl) hread]
  refine ⟨hrun, fun halike => ?_⟩
  rw [hrun, run_eq htaken', perform_of_source rfl rfl (by decide) rfl hr] at halike
  cases halike with
  | done halike => cases halike.status.trans hstatus

end LambdaSyntax.Command
