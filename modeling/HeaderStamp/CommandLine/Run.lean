import HeaderStamp.CommandLine.Arguments
import HeaderStamp.Config.Load
import HeaderStamp.Console.Results
import HeaderStamp.Processing.Processor
import HeaderStamp.Report.Render
import HeaderStamp.Workspace

namespace HeaderStamp

structure Clock where
  year : Nat
  now : Text
  timestamp : Int
  seconds : Binary64
  scanMillis : Nat
deriving DecidableEq, Repr

structure Host where
  machine : Machine
  configFile : Option Text
  logFilter : Option Text
  outColors : Bool
  errColors : Bool
  clock : Clock
deriving DecidableEq, Repr

inductive RunError
  | workspace (error : WorkspaceError)
  | config (error : LoadError)
  | collect (error : CollectError)
  | diff (error : DiffError)
  | rules (error : ConfigError)
deriving DecidableEq, Repr

namespace RunError

def message : RunError → Text
  | .workspace error => error.message
  | .config error => error.message
  | .collect error => error.message
  | .diff error => error.message
  | .rules _ => "Invalid rule table".toList

def causes : RunError → List Text
  | .workspace _ => []
  | .config error => error.causes
  | .collect error => error.causes
  | .diff error => error.causes
  | .rules error => error.message :: error.causes

def indented (first : Text) (width : Nat) (message : Text) : Text :=
  first ++ Text.join ('\n' :: List.replicate width ' ') (Text.split '\n' message)

def numbered (cause : Text × Nat) : Text :=
  let digits := Text.ofNat cause.2
  indented (List.replicate (5 - digits.length) ' ' ++ digits ++ ": ".toList) 7 cause.1

def causesText : List Text → Text
  | [] => []
  | [cause] => "\n\nCaused by:\n".toList ++ indented "    ".toList 4 cause
  | causes => "\n\nCaused by:\n".toList ++ Text.join ['\n'] (causes.zipIdx.map numbered)

def output (error : RunError) : Output :=
  Console.line .err ("Error: ".toList ++ error.message ++ causesText error.causes)

end RunError

inductive ExitStatus
  | success
  | failure
deriving DecidableEq, Repr

def ExitStatus.code : ExitStatus → Nat
  | .success => 0
  | .failure => 1

structure Outcome where
  machine : Machine
  outputs : List Output
  result : Except RunError ExitStatus

def Outcome.exitCode (outcome : Outcome) : Nat :=
  match outcome.result with
  | .ok status => status.code
  | .error _ => 1

namespace Run

def mode (args : Arguments) : Mode :=
  if 0 < args.verbose then .verbose else if args.quiet then .quiet else .normal

def console (host : Host) (args : Arguments) : Console where
  mode := mode args
  filter := Filter.choose host.logFilter args.quiet args.verbose
  outColors := args.colors = .always || (args.colors = .auto && host.outColors)
  errColors := args.colors = .always || (args.colors = .auto && host.errColors)

def workspaceEvents (workspace : Workspace) : List Event :=
  .log .debug .run ("Using workspace root: ".toList ++ workspace.root) ::
    if workspace.kind = .git then
      [.notice ("Git repository detected, paths are relative to ".toList ++ workspace.root)]
    else []

def sources (host : Host) (args : Arguments) (workspace : Workspace) : ConfigSources where
  disabled := args.noConfig
  explicit := args.config
  named := host.configFile
  root := workspace.root

/-- The year of the command line, else of the configuration, else of the clock. -/
def year (host : Host) (args : Arguments) (config : Config) : Text :=
  ((args.year <|> config.header.year).getD (Text.ofNat host.clock.year))

def extensions (args : Arguments) (config : Config) : List Text :=
  if args.extensions = [] then config.header.extensions else args.extensions

def diffSettings (args : Arguments) : DiffSettings := ⟨args.showDiff, args.saveDiff⟩

def task (args : Arguments) : Task := if args.check then .check (diffSettings args) else .write

structure Told (α : Type) where
  events : List Event
  result : Except RunError α

structure Plan where
  workspace : Workspace
  config : Config
  year : Text
  collector : Collector

def plan (host : Host) (args : Arguments) : Told Plan :=
  let machine := host.machine
  let searched := Workspace.events machine args.root
  match Workspace.resolve machine args.root with
  | .error e => ⟨searched, .error (.workspace e)⟩
  | .ok workspace =>
    let sources := sources host args workspace
    let loaded := searched ++ workspaceEvents workspace ++ Config.loadEvents machine sources
    match Config.load machine sources with
    | .error e => ⟨loaded, .error (.config e)⟩
    | .ok config =>
      let year := year host args config
      let dated := loaded ++ [.log .debug .run ("Using copyright year ".toList ++ year)]
      match Collector.make workspace.root (extensions args config) args.ignore with
      | .error e => ⟨dated, .error (.collect e)⟩
      | .ok collector => ⟨dated, .ok ⟨workspace, config, year, collector⟩⟩

structure Job where
  processor : Processor
  files : List Text

def prepare (args : Arguments) (clock : Clock) (machine : Machine) (plan : Plan) : Told Job :=
  match Processor.ofConfig plan.config plan.year plan.workspace.root (task args) with
  | .error e => ⟨[], .error (.rules e)⟩
  | .ok processor =>
    let events := plan.collector.events machine clock.scanMillis args.patterns
    match plan.collector.collect machine args.patterns with
    | .error e => ⟨events, .error (.collect e)⟩
    | .ok files => ⟨events, .ok ⟨processor, files⟩⟩

def writeReport (console : Console) (clock : Clock) (reports : List FileReport)
    (summary : Summary) (machine : Machine) (format : ReportFormat) (path : Option Text) :
    Machine × List Output :=
  match path with
  | none => (machine, [])
  | some path =>
    match Report.generate machine format path reports summary clock.now with
    | .ok machine =>
      (machine, console.display (.notice
        ("Generated ".toList ++ format.name ++ " report at ".toList ++ path)))
    | .error message =>
      (machine, [Console.line .err
        ("Error generating ".toList ++ format.name ++ " report: ".toList ++ message)])

def writeReports (console : Console) (args : Arguments) (clock : Clock)
    (reports : List FileReport) (summary : Summary) (machine : Machine) :
    Machine × List Output :=
  let json := writeReport console clock reports summary machine .json args.reportJson
  let csv := writeReport console clock reports summary json.1 .csv args.reportCsv
  (csv.1, json.2 ++ csv.2)

/-- A run has failed if a file has, or if a check has found a header missing. -/
def status (categories : Categories) (check : Bool) : ExitStatus :=
  if (check ∧ categories.missing ≠ []) ∨ categories.failed ≠ [] then .failure else .success

def perform (console : Console) (args : Arguments) (clock : Clock) (machine : Machine) (job : Job) :
    Outcome :=
  let batch := job.processor.processAll machine job.files
  let summary := Summary.ofReports batch.reports clock.seconds clock.timestamp
  let categories := Categories.ofReports batch.reports
  let written := writeReports console args clock batch.reports summary batch.machine
  { machine := written.1
    outputs :=
      console.startLine job.files.length args.check ++
        console.showAll (Processor.startEvents job.files ++ batch.events) ++
        console.results categories args.check ++ console.closing summary args.check ++ written.2
    result := .ok (status categories args.check) }

def stopped (machine : Machine) (outputs : List Output) (error : RunError) : Outcome :=
  ⟨machine, outputs ++ [error.output], .error error⟩

end Run

/-- A whole run. No file but that of the comparisons is touched before all that can fail has
succeeded. -/
def run (host : Host) (args : Arguments) : Outcome :=
  let console := Run.console host args
  let plan := Run.plan host args
  let planned := console.showAll plan.events
  match plan.result with
  | .error e => Run.stopped host.machine planned e
  | .ok settled =>
    match (Run.diffSettings args).begin host.machine with
    | .error e => Run.stopped host.machine planned (.diff e)
    | .ok machine =>
      let job := Run.prepare args host.clock machine settled
      let prepared := planned ++ console.showAll job.events
      match job.result with
      | .error e => Run.stopped machine prepared e
      | .ok ready =>
        let outcome := Run.perform console args host.clock machine ready
        { outcome with outputs := prepared ++ outcome.outputs }

end HeaderStamp
