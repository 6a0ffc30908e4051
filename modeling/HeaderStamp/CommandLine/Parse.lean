import HeaderStamp.CommandLine.Arguments

namespace HeaderStamp.CommandLine

inductive Switch
  | patterns
  | root
  | config
  | noConfig
  | ext
  | ignore
  | check
  | showDiff
  | saveDiff
  | year
  | reportJson
  | reportCsv
  | verbose
  | quiet
  | colors
  | help
  | version
deriving DecidableEq, Repr

namespace Switch

def long : List (String × Switch) :=
  [ ("root", .root), ("config", .config), ("no-config", .noConfig), ("ext", .ext),
    ("ignore", .ignore), ("check", .check), ("show-diff", .showDiff), ("save-diff", .saveDiff),
    ("year", .year), ("report-json", .reportJson), ("report-csv", .reportCsv),
    ("verbose", .verbose), ("quiet", .quiet), ("colors", .colors), ("help", .help),
    ("version", .version) ]

def ofLong? (name : Text) : Option Switch :=
  (long.find? fun (n, _) ↦ n.toList = name).map Prod.snd

def ofShort? (c : Char) : Option Switch :=
  if c = 'i' then some .ignore
  else if c = 'v' then some .verbose
  else if c = 'q' then some .quiet
  else if c = 'h' then some .help
  else if c = 'V' then some .version
  else none

def takesValue : Switch → Bool
  | .noConfig | .check | .showDiff | .verbose | .quiet | .help | .version => false
  | _ => true

def isRepeatable : Switch → Bool
  | .patterns | .ext | .ignore | .verbose => true
  | _ => false

end Switch

/-- How far a command line is read. A plain argument belongs to the pending switch while a value is
awaited. -/
structure Reading where
  args : Arguments
  seen : List Switch
  pending : Option (Switch × List Text)
  awaiting : Bool

namespace Reading

def start : Reading := ⟨.plain, [], none, false⟩

def verboseLimit : Nat := 255

def path (values : List Text) (set : Text → Arguments) : Except Refusal Arguments :=
  match values with
  | [t] => if t = [] then .error .invalidValue else .ok (set t)
  | _ => .error .invalidValue

def apply (args : Arguments) (switch : Switch) (values : List Text) : Except Refusal Arguments :=
  match switch with
  | .patterns => .ok { args with patterns := args.patterns ++ values }
  | .root => path values fun t ↦ { args with root := some t }
  | .config => path values fun t ↦ { args with config := some t }
  | .noConfig => .ok { args with noConfig := true }
  | .ext => .ok { args with extensions := args.extensions ++ values }
  | .ignore => .ok { args with ignore := args.ignore ++ values }
  | .check => .ok { args with check := true }
  | .showDiff => .ok { args with showDiff := true }
  | .saveDiff => path values fun t ↦ { args with saveDiff := some t }
  | .year => .ok { args with year := values.head? }
  | .reportJson => path values fun t ↦ { args with reportJson := some t }
  | .reportCsv => path values fun t ↦ { args with reportCsv := some t }
  | .verbose => .ok { args with verbose := min (args.verbose + 1) verboseLimit }
  | .quiet => .ok { args with quiet := true }
  | .colors =>
    match ColorMode.ofName? (values.headD ColorMode.always.name) with
    | some colors => .ok { args with colors }
    | none => .error .invalidValue
  | .help => .error .displayHelp
  | .version => .error .displayVersion

/-- Deals with a switch. A missing value comes before a repetition, and that before a bad value. -/
def react (reading : Reading) (switch : Switch) (values : List Text) : Except Refusal Reading :=
  if switch.takesValue ∧ values = [] ∧ switch ≠ .colors then .error .invalidValue
  else if !switch.isRepeatable ∧ reading.seen.contains switch then .error .argumentConflict
  else
    (apply reading.args switch values).map fun args ↦
      { reading with args, seen := switch :: reading.seen }

def resolve (reading : Reading) : Except Refusal Reading :=
  let free := { reading with pending := none, awaiting := false }
  match reading.pending with
  | none => .ok free
  | some (switch, values) => free.react switch values

def resolveThen (reading : Reading) (switch : Switch) (values : List Text) :
    Except Refusal Reading :=
  reading.resolve.bind fun next ↦ next.react switch values

def await (reading : Reading) (switch : Switch) : Except Refusal Reading :=
  reading.resolve.map fun next ↦ { next with pending := some (switch, []), awaiting := true }

def long (reading : Reading) (t : Text) : Except Refusal Reading :=
  let name := t.takeWhile (· ≠ '=')
  match Switch.ofLong? name with
  | none => .error .unknownArgument
  | some switch =>
    match switch.takesValue, t.drop name.length with
    | true, [] => reading.await switch
    | true, _ :: value => reading.resolveThen switch [value]
    | false, [] => reading.resolveThen switch []
    | false, _ => .error .tooManyValues

/-- Letters after one dash. What follows a letter that takes a value is its value. -/
def short (reading : Reading) : Text → Except Refusal Reading
  | [] => .ok reading
  | c :: rest =>
    match Switch.ofShort? c with
    | none => .error .unknownArgument
    | some switch =>
      if switch.takesValue then
        match rest with
        | [] => reading.await switch
        | '=' :: value => reading.resolveThen switch [value]
        | value => reading.resolveThen switch [value]
      else (reading.resolveThen switch []).bind fun next ↦ next.short rest

def positional (reading : Reading) (t : Text) : Except Refusal Reading :=
  reading.resolveThen .patterns [t]

def plain (reading : Reading) (t : Text) : Except Refusal Reading :=
  match reading.awaiting, reading.pending with
  | true, some (switch, values) =>
    .ok { reading with pending := some (switch, values ++ [t]), awaiting := false }
  | _, _ => reading.positional t

/-- Reads the arguments one after the other; after two dashes alone all are patterns. -/
def readAll (reading : Reading) : List Text → Except Refusal Reading
  | [] => reading.resolve
  | t :: rest =>
    match t with
    | ['-', '-'] =>
      (rest.foldlM positional reading).bind resolve
    | '-' :: '-' :: name => (reading.long name).bind fun next ↦ next.readAll rest
    | '-' :: c :: more => (reading.short (c :: more)).bind fun next ↦ next.readAll rest
    | _ => (reading.plain t).bind fun next ↦ next.readAll rest

end Reading

def parse (arguments : List Text) : Except Refusal Arguments :=
  (Reading.start.readAll arguments).bind fun reading ↦ reading.args.consistent

end HeaderStamp.CommandLine
