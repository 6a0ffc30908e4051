import HeaderStamp.Config.Decode
import HeaderStamp.Console.Event
import HeaderStamp.FileTree.Machine

namespace HeaderStamp

/-- Where a configuration may come from: a file that is asked for, one that the environment names,
or the one of the project. -/
structure ConfigSources where
  disabled : Bool
  explicit : Option Text
  named : Option Text
  root : Text
deriving DecidableEq, Repr

inductive LoadError
  | missing (path : Text)
  | refused (path : Text) (error : ConfigError)
deriving DecidableEq, Repr

namespace LoadError

def message : LoadError → Text
  | .missing path => "Config file not found: ".toList ++ path
  | .refused path _ => "Failed to load config from ".toList ++ path

def causes : LoadError → List Text
  | .missing _ => []
  | .refused _ error => error.message :: error.causes

end LoadError

namespace ConfigSources

def fileName : Text := ".edheader.toml".toList

def projectFile (sources : ConfigSources) : Text := Path.append sources.root fileName

def projectPath? (machine : Machine) (sources : ConfigSources) : Option Text :=
  if machine.pathExists sources.projectFile then some sources.projectFile else none

/-- The configuration file in use: the one that is asked for, else the one named by the environment
if it exists, else the project's own one. -/
def path? (machine : Machine) (sources : ConfigSources) : Option Text :=
  match sources.explicit with
  | some path => if machine.pathExists path then some path else none
  | none =>
    match sources.named with
    | some path =>
      if machine.pathExists path then some path else sources.projectPath? machine
    | none => sources.projectPath? machine

def events (machine : Machine) (sources : ConfigSources) : List Event :=
  match sources.explicit with
  | some path =>
    if machine.pathExists path then [.detail ("Using explicit config path: ".toList ++ path)]
    else [.detail ("Explicit config path does not exist: ".toList ++ path)]
  | none =>
    let project : List Event :=
      match sources.projectPath? machine with
      | some path => [.detail ("Using project config: ".toList ++ path)]
      | none => [.detail "No config file found, using built-in rules".toList]
    match sources.named with
    | some path =>
      if machine.pathExists path then
        [.detail ("Using config from EDHEADER_CONFIG: ".toList ++ path)]
      else .detail ("EDHEADER_CONFIG path does not exist: ".toList ++ path) :: project
    | none => project

end ConfigSources

namespace Config

def readFile (machine : Machine) (path : Text) : Except ConfigError Config :=
  match machine.readText path with
  | .error fault => .error (.unreadable path fault)
  | .ok content => accept path content

/-- The configuration of a run. A file that is asked for must exist. -/
def load (machine : Machine) (sources : ConfigSources) : Except LoadError Config :=
  if sources.disabled then .ok builtin
  else
    match sources.explicit.filter (!machine.pathExists ·) with
    | some path => .error (.missing path)
    | none =>
      match sources.path? machine with
      | none => .ok builtin
      | some path => (readFile machine path).mapError (.refused path)

def loadEvents (machine : Machine) (sources : ConfigSources) : List Event :=
  if sources.disabled then [.detail "Config file discovery disabled (--no-config)".toList]
  else
    match sources.explicit.filter (!machine.pathExists ·) with
    | some _ => []
    | none =>
      sources.events machine ++
        match sources.path? machine with
        | none => []
        | some path =>
          .detail ("Loading config from: ".toList ++ path) ::
            match readFile machine path with
            | .error _ => []
            | .ok config =>
              [.detail ("Loaded ".toList ++ Text.ofNat config.rules.length ++
                " directory rules".toList)]

end Config

end HeaderStamp
