import HeaderStamp.CommandLine.Run
import HeaderStamp.Proofs.Attempts
import HeaderStamp.Proofs.FileTree.Writing

namespace HeaderStamp

theorem Console.showAll_append (console : Console) (first second : List Event) :
    console.showAll (first ++ second) = console.showAll first ++ console.showAll second :=
  List.flatMap_append

/-- Does the error end a run before the file of comparisons has been opened? -/
def RunError.isEarly : RunError → Bool
  | .workspace _ => true
  | .config _ => true
  | .collect (.ignorePattern _ _) => true
  | .collect (.searchPattern _ _) => false
  | .diff _ => true
  | .rules _ => false

theorem DiffSettings.written_of_begin {settings : DiffSettings} {machine after : Machine}
    (h : settings.begin machine = .ok after) :
    settings.file = none ∧ after = machine ∨
      ∃ file, settings.file = some file ∧ Machine.Written file [] machine after := by
  rw [begin] at h
  cases hfile : settings.file with
  | none =>
    rw [hfile] at h
    cases h
    exact .inl ⟨rfl, rfl⟩
  | some file =>
    rw [hfile] at h
    dsimp only at h
    cases hwrite : machine.write file [] with
    | error fault =>
      rw [hwrite] at h
      cases h
    | ok written =>
      rw [hwrite] at h
      cases h
      exact .inr ⟨file, rfl, Machine.written_of_write hwrite⟩

namespace Run

/-- What a run goes on with once all that can fail has succeeded, the file of comparisons being
empty. -/
structure Start where
  machine : Machine
  job : Job

def Start.batch (ready : Start) : Batch :=
  ready.job.processor.processAll ready.machine ready.job.files

def Start.summary (ready : Start) (clock : Clock) : Summary :=
  .ofReports ready.batch.reports clock.seconds clock.timestamp

def Start.categories (ready : Start) : Categories := .ofReports ready.batch.reports

def start (host : Host) (args : Arguments) : Except RunError Start := do
  let settled ← (plan host args).result
  let machine ← ((diffSettings args).begin host.machine).mapError .diff
  let job ← (prepare args host.clock machine settled).result
  return ⟨machine, job⟩

/-- How a run can go, with the events of its first part. -/
inductive Course (host : Host) (args : Arguments) : Outcome → Prop
  | refused (told : List Event) {e : RunError} :
      start host args = .error e → e.isEarly = true →
      Course host args (stopped host.machine ((console host args).showAll told) e)
  | dropped (told : List Event) {machine : Machine} {e : RunError} :
      start host args = .error e → e.isEarly = false →
      (diffSettings args).begin host.machine = .ok machine →
      Course host args (stopped machine ((console host args).showAll told) e)
  | performed (told : List Event) {ready : Start} {outcome : Outcome} :
      start host args = .ok ready →
      perform (console host args) args host.clock ready.machine ready.job = outcome →
      Course host args
        { outcome with outputs := (console host args).showAll told ++ outcome.outputs }

theorem perform_eq (console : Console) (args : Arguments) (clock : Clock) (ready : Start) :
    let written := writeReports console args clock ready.batch.reports (ready.summary clock)
      ready.batch.machine
    perform console args clock ready.machine ready.job =
      { machine := written.1
        outputs :=
          console.startLine ready.job.files.length args.check ++
            console.showAll (Processor.startEvents ready.job.files ++ ready.batch.events) ++
            console.results ready.categories args.check ++
            console.closing (ready.summary clock) args.check ++ written.2
        result := .ok (status ready.categories args.check) } := rfl

theorem isEarly_of_make {root : Text} {extensions ignore : List Text} {e : CollectError}
    (h : Collector.make root extensions ignore = .error e) :
    (RunError.collect e).isEarly = true := by
  obtain ⟨pattern, -, hpattern⟩ := exists_mem_of_mapM_error (error_of_map_error h)
  obtain ⟨fault, -, rfl⟩ := exists_error_of_mapError hpattern
  rfl

theorem isEarly_of_collect {collector : Collector} {machine : Machine} {patterns : List Text}
    {e : CollectError} (h : collector.collect machine patterns = .error e) :
    (RunError.collect e).isEarly = false := by
  obtain ⟨pattern, -, hpattern⟩ :=
    exists_mem_of_mapM_error (error_of_map_error (error_of_map_error h))
  rw [Collector.sources] at hpattern
  split at hpattern
  · cases hpattern
  · split at hpattern
    · cases hpattern
      rfl
    · cases hpattern

theorem isEarly_of_plan {host : Host} {args : Arguments} {e : RunError}
    (h : (plan host args).result = .error e) : e.isEarly = true := by
  rw [plan] at h
  dsimp only at h
  split at h
  · cases h
    rfl
  · split at h
    · cases h
      rfl
    · split at h
      · cases h
        exact isEarly_of_make ‹_›
      · cases h

theorem isEarly_of_prepare {args : Arguments} {clock : Clock} {machine : Machine} {settled : Plan}
    {e : RunError} (h : (prepare args clock machine settled).result = .error e) :
    e.isEarly = false := by
  rw [prepare] at h
  split at h
  · cases h
    rfl
  · dsimp only at h
    split at h
    · cases h
      exact isEarly_of_collect ‹_›
    · cases h

/-- A run gets started, or it ends before or after the file of comparisons has been opened. -/
theorem course (host : Host) (args : Arguments) : Course host args (run host args) := by
  rw [run]
  dsimp only
  cases hplan : (plan host args).result with
  | error e =>
    have hstart : start host args = .error e := by rw [start, hplan]; rfl
    exact .refused _ hstart (isEarly_of_plan hplan)
  | ok settled =>
    dsimp only
    cases hbegin : (diffSettings args).begin host.machine with
    | error e =>
      have hstart : start host args = .error (.diff e) := by
        simp only [start, hplan, hbegin, Except.mapError, bind, Except.bind]
      exact .refused _ hstart rfl
    | ok machine =>
      dsimp only
      rw [← Console.showAll_append]
      cases hjob : (prepare args host.clock machine settled).result with
      | error e =>
        have hstart : start host args = .error e := by
          simp only [start, hplan, hbegin, Except.mapError, bind, Except.bind, hjob]
        exact .dropped _ hstart (isEarly_of_prepare hjob) hbegin
      | ok job =>
        have hstart : start host args = .ok ⟨machine, job⟩ := by
          simp only [start, hplan, hbegin, Except.mapError, bind, Except.bind, hjob]
          rfl
        exact .performed _ hstart rfl

/-- A machine in which at most the file of comparisons has been made or emptied. -/
structure Spared (args : Arguments) (e : RunError) (before after : Machine) : Prop where
  cwd_eq : after.cwd = before.cwd
  surface_eq : ∀ location, (∀ file ∈ args.saveDiff, after.fileAt? file ≠ some location) →
    (after.tree.at? location).map Node.surface = (before.tree.at? location).map Node.surface
  bytes?_eq : ∀ path, (∀ file ∈ args.saveDiff, after.Apart path file) →
    after.bytes? path = before.bytes? path
  machine_eq : e.isEarly = true → after = before
  read_eq : e.isEarly = false → ∀ file ∈ args.saveDiff, after.read file = .ok []

theorem Spared.unchanged {args : Arguments} {e : RunError} {machine : Machine}
    (h : e.isEarly = true ∨ args.saveDiff = none) : Spared args e machine machine where
  cwd_eq := rfl
  surface_eq := fun _ _ ↦ rfl
  bytes?_eq := fun _ _ ↦ rfl
  machine_eq := fun _ ↦ rfl
  read_eq := by
    intro hlate file hfile
    rcases h with hearly | hnone
    · rw [hlate] at hearly
      cases hearly
    · rw [hnone] at hfile
      cases hfile

/-- A run that ends in an error, whichever it is, has touched nothing but the file of
comparisons. -/
theorem spared_of_error {host : Host} {args : Arguments} {e : RunError}
    (h : (run host args).result = .error e) :
    Spared args e host.machine (run host args).machine := by
  have hcourse := course host args
  generalize run host args = outcome at h hcourse
  cases hcourse with
  | refused told hstart hearly =>
    cases h
    exact .unchanged (.inl hearly)
  | @dropped told machine last hstart hlate hbegin =>
    cases h
    rcases DiffSettings.written_of_begin hbegin with ⟨hnone, rfl⟩ | ⟨file, hfile, hwritten⟩
    · exact .unchanged (.inr hnone)
    · refine ⟨hwritten.cwd_eq, ?_, ?_, ?_, ?_⟩
      · exact fun location hl ↦ hwritten.surface_eq location (hl file hfile)
      · exact fun path hpath ↦ hwritten.bytes?_eq path (hpath file hfile)
      · intro hearly
        rw [hlate] at hearly
        cases hearly
      · intro _ other hother
        cases hfile.symm.trans hother
        exact hwritten.read_eq
  | performed told hstart houtcome =>
    rw [← houtcome] at h
    cases h

theorem spared_of_error_behind_first_pattern :
    let machine : Machine :=
      ⟨.file "a.go".toList (Utf8.encode "package a\n".toList)
        (.file "x.diff".toList [1] .empty), []⟩
    let host : Host := ⟨machine, none, none, false, false, ⟨2025, [], 0, .finite false 0 0, 0⟩⟩
    let args : Arguments :=
      { Arguments.plain with
        patterns := ["a.go".toList, "[".toList], noConfig := true, check := true
        root := some "/".toList, saveDiff := some "x.diff".toList
        reportJson := some "x.json".toList }
    let e : RunError := .collect (.searchPattern "[".toList ⟨0, .range⟩)
    (run host args).result = .error e ∧ e.isEarly = false ∧
      Spared args e machine (run host args).machine := by
  intro machine host args e
  have h : (run host args).result = .error e := by decide +kernel
  exact ⟨h, rfl, spared_of_error h⟩

end Run

end HeaderStamp
