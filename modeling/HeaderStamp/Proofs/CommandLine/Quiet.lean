import HeaderStamp.CommandLine.Parse
import HeaderStamp.Proofs.CommandLine.Course
import HeaderStamp.Proofs.Report.Categories

namespace HeaderStamp

def Output.textOn (stream : Stream) (outputs : List Output) : Text :=
  outputs.flatMap fun output ↦ if output.stream = stream then output.text else []

def Output.Muted (outputs : List Output) : Prop := ∀ output ∈ outputs, output.stream = .err

namespace Output

theorem textOn_append (stream : Stream) (first second : List Output) :
    textOn stream (first ++ second) = textOn stream first ++ textOn stream second :=
  List.flatMap_append

theorem textOn_map_line {α : Type} (stream : Stream) (f : α → Text) (l : List α) :
    textOn stream (l.map fun a ↦ Console.line stream (f a)) = Text.unlines ['\n'] (l.map f) := by
  rw [textOn, Text.unlines, List.flatMap_map, List.flatMap_map]
  simp only [Console.line, if_true]

namespace Muted

theorem textOn_eq_nil {outputs : List Output} (h : Muted outputs) : textOn .out outputs = [] := by
  rw [textOn, List.flatMap_eq_nil_iff]
  intro output houtput
  rw [h output houtput]
  rfl

theorem nil : Muted [] := List.forall_mem_nil _

theorem append {first second : List Output} (hfirst : Muted first) (hsecond : Muted second) :
    Muted (first ++ second) := List.forall_mem_append.mpr ⟨hfirst, hsecond⟩

theorem line (t : Text) : Muted [Console.line .err t] := List.forall_mem_singleton.mpr rfl

theorem map_line {α : Type} (f : α → Text) (l : List α) :
    Muted (l.map fun a ↦ Console.line .err (f a)) := by
  intro output houtput
  obtain ⟨a, -, rfl⟩ := List.mem_map.mp houtput
  rfl

end Muted

end Output

namespace Console

open Output

variable {console : Console}

theorem unlessQuiet_eq_nil (h : console.isQuiet = true) (t : Text) : console.unlessQuiet t = [] :=
  if_pos h

theorem muted_display (h : console.isQuiet = true) (event : Event) :
    Muted (console.display event) := by
  cases event with
  | detail message =>
    rw [display]
    split
    · exact .line _
    · exact .nil
  | notice message =>
    rw [display, if_pos h]
    exact .nil
  | log level topic message =>
    rw [display]
    split
    · exact .line _
    · exact .nil
  | comparison path lines =>
    refine Muted.append (List.forall_mem_cons.mpr ⟨rfl, ?_⟩) (.line _)
    intro output houtput
    obtain ⟨change, -, rfl⟩ := List.mem_map.mp houtput
    rw [comparisonLine]
    cases change.1 <;> rfl

theorem muted_showAll (h : console.isQuiet = true) (events : List Event) :
    Muted (console.showAll events) := by
  intro output houtput
  obtain ⟨event, -, houtput⟩ := List.mem_flatMap.mp houtput
  exact muted_display h event output houtput

theorem muted_failedFiles (console : Console) (files : List FileReport) :
    Muted (console.failedFiles files) := by
  rw [failedFiles]
  split
  · exact .nil
  · split
    · exact .map_line _ _
    · exact List.forall_mem_cons.mpr ⟨rfl, Muted.map_line _ _⟩

theorem textOn_missingFiles (h : console.isQuiet = true) (files : List FileReport) :
    textOn .out (console.missingFiles files) =
      Text.unlines ['\n'] (files.map FileReport.relative) := by
  rw [missingFiles]
  by_cases hnone : files = []
  · rw [if_pos hnone, hnone]
    rfl
  · rw [if_neg hnone, if_pos h, textOn_map_line]

theorem textOn_results (h : console.isQuiet = true) (categories : Categories) (check : Bool) :
    textOn .out (console.results categories check) =
      if check then Text.unlines ['\n'] (categories.missing.map FileReport.relative) else [] := by
  have hfailed := (muted_failedFiles console categories.failed).textOn_eq_nil
  have hfine : console.allFine = [] := unlessQuiet_eq_nil h _
  rw [results, blankLine, unlessQuiet_eq_nil h, hfine, ite_self, List.append_nil, List.nil_append,
    textOn_append, hfailed, List.append_nil]
  cases check with
  | true => exact textOn_missingFiles h _
  | false =>
    have hadded : console.addedFiles categories.added = [] := if_pos (.inr h)
    simp only [Bool.false_eq_true, if_false, hadded]
    rfl

theorem closing_eq_nil (h : console.isQuiet = true) (total : Summary) (check : Bool) :
    console.closing total check = [] := by
  rw [closing, blankLine, summary, hint]
  simp only [unlessQuiet_eq_nil h, List.append_nil, ite_self]

end Console

namespace Run

open Output

variable {host : Host} {args : Arguments} {console : Console}

theorem isQuiet_console (hquiet : args.quiet = true) (hverbose : args.verbose = 0) :
    (Run.console host args).isQuiet = true := by
  simp [Run.console, Console.isQuiet, mode, hquiet, hverbose]

theorem muted_writeReport (h : console.isQuiet = true) (clock : Clock) (reports : List FileReport)
    (summary : Summary) (machine : Machine) (format : ReportFormat) (path : Option Text) :
    Muted (writeReport console clock reports summary machine format path).2 := by
  cases path with
  | none => exact .nil
  | some path =>
    rw [writeReport]
    split
    · exact Console.muted_display h (.notice _)
    · exact .line _

theorem muted_writeReports (h : console.isQuiet = true) (args : Arguments) (clock : Clock)
    (reports : List FileReport) (summary : Summary) (machine : Machine) :
    Muted (writeReports console args clock reports summary machine).2 :=
  (muted_writeReport h _ _ _ _ _ _).append (muted_writeReport h _ _ _ _ _ _)

theorem muted_output (e : RunError) : Muted [e.output] := .line _

theorem textOn_perform (h : console.isQuiet = true) (args : Arguments) (clock : Clock)
    (ready : Start) :
    textOn .out (perform console args clock ready.machine ready.job).outputs =
      if args.check then
        Text.unlines ['\n'] ((ready.batch.reports.filter fun report ↦
          report.action = .missing).map FileReport.relative)
      else [] := by
  have hevents (events : List Event) := (Console.muted_showAll h events).textOn_eq_nil
  have hwritten := (muted_writeReports h args clock ready.batch.reports (ready.summary clock)
    ready.batch.machine).textOn_eq_nil
  have hmissing : ready.categories.missing =
      ready.batch.reports.filter fun report ↦ report.action = .missing :=
    Categories.of_ofReports _ .missing
  rw [perform_eq, Console.startLine, Console.unlessQuiet_eq_nil h, Console.closing_eq_nil h]
  simp only [textOn_append, hevents, hwritten, Console.textOn_results h, hmissing,
    List.append_nil]
  rfl

/-- The standard output of a quiet run is the list of the files that a check finds without a header,
and nothing but this list, however the run goes. -/
theorem textOn_run_of_quiet {host : Host} {args : Arguments} (hquiet : args.quiet = true)
    (hverbose : args.verbose = 0) :
    textOn .out (run host args).outputs =
      match start host args with
      | .error _ => []
      | .ok ready =>
        if args.check then
          Text.unlines ['\n'] ((ready.batch.reports.filter fun report ↦
            report.action = .missing).map FileReport.relative)
        else [] := by
  have h : (Run.console host args).isQuiet = true := isQuiet_console hquiet hverbose
  have htold (events : List Event) := (Console.muted_showAll h events).textOn_eq_nil
  have hcourse := course host args
  generalize run host args = outcome at hcourse
  cases hcourse with
  | @refused told e hstart hearly =>
    rw [hstart, stopped, textOn_append, htold]
    exact (muted_output e).textOn_eq_nil
  | @dropped told machine e hstart hlate hbegin =>
    rw [hstart, stopped, textOn_append, htold]
    exact (muted_output e).textOn_eq_nil
  | @performed told ready outcome hstart houtcome =>
    rw [hstart, ← houtcome, textOn_append, htold, List.nil_append]
    exact textOn_perform h args host.clock ready

theorem textOn_run_of_quiet_check :
    let machine : Machine :=
      ⟨.file "a.go".toList (Utf8.encode "package a\n".toList) .empty, []⟩
    let host : Host := ⟨machine, none, none, false, false, ⟨2025, [], 0, .finite false 0 0, 0⟩⟩
    let args : Arguments :=
      { Arguments.plain with
        patterns := ["a.go".toList], noConfig := true, root := some "/".toList
        check := true, quiet := true }
    args.quiet = true ∧ args.verbose = 0 ∧
      textOn .out (run host args).outputs = "a.go\n".toList := by
  intro machine host args
  refine ⟨rfl, rfl, (textOn_run_of_quiet rfl rfl).trans ?_⟩
  decide +kernel

end Run

/-- No command line asks for a run that is quiet and verbose. -/
theorem CommandLine.verbose_eq_zero_of_parse {arguments : List Text} {args : Arguments}
    (h : parse arguments = .ok args) (hquiet : args.quiet = true) : args.verbose = 0 := by
  rw [parse] at h
  cases hread : Reading.start.readAll arguments with
  | error refusal =>
    rw [hread] at h
    cases h
  | ok reading =>
    rw [hread] at h
    simp only [Except.bind, Arguments.consistent] at h
    split_ifs at h with hconfig hloud hdiff
    cases h
    have hsame : reading.args.withDefaults.quiet = reading.args.quiet ∧
        reading.args.withDefaults.verbose = reading.args.verbose := by
      rw [Arguments.withDefaults]
      split <;> exact ⟨rfl, rfl⟩
    rw [hsame.1] at hquiet
    rw [hsame.2]
    exact Nat.eq_zero_of_not_pos fun hpos ↦ hloud ⟨hquiet, hpos⟩

end HeaderStamp
