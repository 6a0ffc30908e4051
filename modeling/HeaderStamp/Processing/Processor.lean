import HeaderStamp.Collector
import HeaderStamp.Config.Basic
import HeaderStamp.Diff.Log
import HeaderStamp.Report.Summary

namespace HeaderStamp

inductive FileError
  | unreadable (path : Text) (fault : PathFault)
  | binary (path : Text)
  | encoding (path : Text) (fault : Utf8.Fault)
  | unwritable (path : Text) (fault : PathFault)
deriving DecidableEq, Repr

def FileError.message : FileError → Text
  | .unreadable path fault => "Failed to read file: ".toList ++ path ++ ": ".toList ++ fault.message
  | .binary path => "Refusing to annotate binary file: ".toList ++ path
  | .encoding path fault =>
    "File is not valid UTF-8 text: ".toList ++ path ++ ": ".toList ++ fault.message
  | .unwritable path fault => "Failed to write file: ".toList ++ path ++ ": ".toList ++ fault.message

/-- So many bytes are looked through for a zero byte, the sign of a binary file. -/
def sniffLimit : Nat := 8 * 1024

def looksBinary (bytes : Bytes) : Bool := (bytes.take sniffLimit).contains 0

def sourceText (path : Text) (bytes : Bytes) : Except FileError Text :=
  if looksBinary bytes then .error (.binary path)
  else (Utf8.decode bytes).mapError (.encoding path)

namespace Machine

def readSource (machine : Machine) (path : Text) : Except FileError Text :=
  match machine.read path with
  | .error fault => .error (.unreadable path fault)
  | .ok bytes => sourceText path bytes

def writeSource (machine : Machine) (path content : Text) : Except FileError Machine :=
  (machine.write path (Utf8.encode content)).mapError (.unwritable path)

end Machine

inductive Task
  | write
  | check (diff : DiffSettings)
deriving DecidableEq, Repr

structure Processor where
  rules : RuleTable
  settings : HeaderSettings
  inserter : Inserter
  detector : Detector
  root : Text
  task : Task
deriving DecidableEq, Repr

structure Stamped where
  component : Text
  insertion : Insertion
deriving DecidableEq, Repr

structure Step where
  machine : Machine
  report : FileReport
  events : List Event

structure Batch where
  machine : Machine
  reports : List FileReport
  events : List Event

namespace Processor

def ofConfig (config : Config) (year root : Text) (task : Task) : Except ConfigError Processor :=
  config.table.map fun rules ↦
    { rules, root, task
      settings := config.settings year
      inserter := config.inserter
      detector := config.detector }

def baseName (relative : Text) : Text := (Path.stem? relative).getD []

def header (processor : Processor) (relative : Text) : List Text :=
  processor.settings.header relative (baseName relative) (processor.rules.resolve relative)

def annotate (processor : Processor) (relative content : Text) : Stamped where
  component := (processor.rules.resolve relative).component
  insertion := processor.inserter.insert processor.detector (processor.header relative) content

def annotateEvents (processor : Processor) (relative : Text) : List Event :=
  let rule := (processor.rules.resolve relative).directory?.getD "<default>".toList
  let (kind, stem) := processor.settings.classify (baseName relative)
  [ .log .trace .processing ("Resolved ".toList ++ relative ++ " to rule ".toList ++ rule),
    .detail ("Classified ".toList ++ relative ++ " as ".toList ++ kind.name ++
      " (feature: ".toList ++ Header.featureLabel stem ++ [')']) ]

def failed (machine : Machine) (path relative : Text) (error : FileError) (events : List Event) :
    Step where
  machine := machine
  report := FileReport.ofFailure path relative error.message
  events := events ++ [.log .error .processing
    ("Error processing ".toList ++ path ++ ": ".toList ++ error.message)]

/-- The comparison of a file that lacks its header goes where the settings say. A comparison that
cannot be saved is only told about. -/
def keepDiff (diff : DiffSettings) (machine : Machine) (path relative old new : Text) :
    Machine × List Event :=
  if diff.isEnabled then
    match diff.save machine relative old new with
    | .ok machine => (machine, diff.events path old new)
    | .error e =>
      (machine, diff.events path old new ++ [.log .warn .processing
        ("Failed to display diff for ".toList ++ path ++ ": ".toList ++ e.full)])
  else (machine, [])

def processFile (processor : Processor) (machine : Machine) (path relative : Text) : Step :=
  match machine.readSource path with
  | .error e => failed machine path relative e []
  | .ok content =>
    let stamped := processor.annotate relative content
    let told := processor.annotateEvents relative
    let done (machine : Machine) (action : Action) (events : List Event) : Step :=
      ⟨machine, ⟨path, relative, some stamped.component, action, none⟩, told ++ events⟩
    if !stamped.insertion.changed then
      done machine .alreadyAnnotated
        [.log .trace .processing ("Skipping: ".toList ++ path ++ " (header already present)".toList)]
    else
      match processor.task with
      | .check diff =>
        let (machine, events) :=
          keepDiff diff machine path relative content stamped.insertion.content
        done machine .missing events
      | .write =>
        match machine.writeSource path stamped.insertion.content with
        | .error e => failed machine path relative e told
        | .ok machine => done machine .added [.notice ("Added header to: ".toList ++ relative)]

/-- Processes files one after the other. A failure stays with its file. -/
def processAll (processor : Processor) (machine : Machine) : List Text → Batch
  | [] => ⟨machine, [], []⟩
  | path :: rest =>
    let step := processor.processFile machine path (machine.relative path processor.root)
    let batch := processor.processAll step.machine rest
    ⟨batch.machine, step.report :: batch.reports, step.events ++ batch.events⟩

def startEvents (paths : List Text) : List Event :=
  [.log .debug .processing
    ("Processing ".toList ++ Text.ofNat paths.length ++ " files".toList)]

end Processor

end HeaderStamp
