import HeaderStamp.Console.Event
import HeaderStamp.FileTree.Machine
import HeaderStamp.Glob.Expansion
import HeaderStamp.Text.Case

namespace HeaderStamp

/-- The printed path of a file: its way from the root, directory links on both resolved as far as
the directories exist. -/
def Machine.relative (machine : Machine) (path root : Text) : Text :=
  let absolute := machine.absolute path
  let resolved :=
    match Path.fileName? absolute with
    | none => absolute
    | some name =>
      match machine.canonical? (Path.ofComponents (Path.components absolute).dropLast) with
      | some parent => Path.append parent name
      | none => absolute
  let root := machine.absolute root
  Path.slash (Path.relativeTo resolved ((machine.canonical? root).getD root))

structure Collector where
  root : Text
  extensions : List Text
  ignored : List Glob.Pattern
deriving DecidableEq, Repr

inductive CollectError
  | ignorePattern (pattern : Text) (error : Glob.PatternError)
  | searchPattern (pattern : Text) (error : Glob.PatternError)
deriving DecidableEq, Repr

namespace CollectError

def message : CollectError → Text
  | .ignorePattern pattern _ => "Invalid ignore pattern: ".toList ++ pattern
  | .searchPattern pattern _ => "Invalid glob pattern: ".toList ++ pattern

def causes : CollectError → List Text
  | .ignorePattern _ error => [error.message]
  | .searchPattern _ error => [error.message]

end CollectError

namespace Collector

def builtinIgnores : List Text := ["**/vendor/**".toList]

def ignorePattern (pattern : Text) : Except CollectError Glob.Pattern :=
  (Glob.parse pattern).mapError (.ignorePattern pattern)

def make (root : Text) (extensions ignore : List Text) : Except CollectError Collector :=
  ((builtinIgnores ++ ignore).mapM ignorePattern).map fun ignored ↦
    { root, ignored, extensions := extensions.map fun ext ↦ Text.lower (ext.dropWhile (· = '.')) }

inductive Verdict
  | chosen
  | otherExtension
  | ignored
deriving DecidableEq, Repr

def hasExtension (collector : Collector) (path : Text) : Bool :=
  collector.extensions.isEmpty ||
    collector.extensions.contains (Text.lower ((Path.extension? path).getD []))

/-- Ignore patterns are held against the printed path and the path as it is. -/
def isIgnored (collector : Collector) (machine : Machine) (path : Text) : Bool :=
  let relative := machine.relative path collector.root
  let full := Text.replaceChar '\\' ['/'] path
  collector.ignored.any fun pattern ↦ Glob.accepts pattern relative || Glob.accepts pattern full

def verdict (collector : Collector) (machine : Machine) (path : Text) : Verdict :=
  if !collector.hasExtension path then .otherExtension
  else if collector.isIgnored machine path then .ignored
  else .chosen

def isCandidate (collector : Collector) (machine : Machine) (path : Text) : Bool :=
  collector.verdict machine path = .chosen

/-- A path that was named or found: a file stands for itself, a directory for what is below it. -/
inductive Source
  | file (path : Text)
  | folder (path : Text)
deriving DecidableEq, Repr

def sourceAt (machine : Machine) (path : Text) : Option Source :=
  if machine.isFile path then some (.file path)
  else if machine.isFolder path then some (.folder path)
  else none

/-- What a pattern stands for. A path that exists is taken as it is. -/
def sources (machine : Machine) (pattern : Text) : Except CollectError (List Source) :=
  match sourceAt machine pattern with
  | some source => .ok [source]
  | none =>
    match Glob.expand machine pattern with
    | .error e => .error (.searchPattern pattern e)
    | .ok paths => .ok (paths.filterMap (sourceAt machine))

def filesOf (machine : Machine) : Source → List Text
  | .file path => [path]
  | .folder path => machine.walk path

def dropRepeated : List Text → List Text
  | [] => []
  | path :: rest =>
    match dropRepeated rest with
    | [] => [path]
    | next :: more =>
      if Path.components path = Path.components next then path :: more else path :: next :: more

def arrange (paths : List Text) : List Text := dropRepeated (paths.mergeSort Path.le)

def gather (machine : Machine) (patterns : List Text) : Except CollectError (List Text) :=
  (patterns.mapM (sources machine)).map fun found ↦ found.flatten.flatMap (filesOf machine)

def collect (collector : Collector) (machine : Machine) (patterns : List Text) :
    Except CollectError (List Text) :=
  (gather machine patterns).map fun paths ↦ arrange (paths.filter (collector.isCandidate machine))

def scanEvents (machine : Machine) (millis : Nat) : Source → List Event
  | .file _ => []
  | .folder path =>
    [ .log .debug .collecting ("Scanning directory: ".toList ++ path),
      .log .debug .collecting
        ("Found ".toList ++ Text.ofNat (machine.walk path).length ++ " files in ".toList ++
          Text.ofNat millis ++ "ms".toList) ]

/-- What the log tells about the patterns up to the first one that is refused. -/
def gatherEvents (machine : Machine) (millis : Nat) : List Text → List Event
  | [] => []
  | pattern :: rest =>
    match sources machine pattern with
    | .error _ => []
    | .ok found => found.flatMap (scanEvents machine millis) ++ gatherEvents machine millis rest

def verdictEvents (collector : Collector) (machine : Machine) (path : Text) : List Event :=
  let skipped (reason : String) : List Event :=
    [.log .trace .collecting ("Skipping: ".toList ++ path ++ reason.toList)]
  match collector.verdict machine path with
  | .chosen => []
  | .otherExtension => skipped " (extension not selected)"
  | .ignored => skipped " (matches ignore pattern)"

def events (collector : Collector) (machine : Machine) (millis : Nat) (patterns : List Text) :
    List Event :=
  gatherEvents machine millis patterns ++
    match gather machine patterns with
    | .error _ => []
    | .ok paths =>
      paths.flatMap (collector.verdictEvents machine) ++
        [.log .debug .collecting
          ("Collected ".toList ++
            Text.ofNat (arrange (paths.filter (collector.isCandidate machine))).length ++
            " candidate files".toList)]

end Collector

end HeaderStamp
