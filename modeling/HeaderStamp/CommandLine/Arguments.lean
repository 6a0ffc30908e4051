import HeaderStamp.Text.Basic

namespace HeaderStamp

inductive ColorMode
  | auto
  | never
  | always
deriving DecidableEq, Repr

namespace ColorMode

def name : ColorMode → Text
  | .auto => "auto".toList
  | .never => "never".toList
  | .always => "always".toList

def ofName? (t : Text) : Option ColorMode := [auto, never, always].find? fun mode ↦ mode.name = t

end ColorMode

structure Arguments where
  patterns : List Text
  root : Option Text
  config : Option Text
  noConfig : Bool
  extensions : List Text
  ignore : List Text
  check : Bool
  showDiff : Bool
  saveDiff : Option Text
  year : Option Text
  reportJson : Option Text
  reportCsv : Option Text
  verbose : Nat
  quiet : Bool
  colors : ColorMode
deriving DecidableEq, Repr

inductive Refusal
  | argumentConflict
  | missingRequiredArgument
  | unknownArgument
  | invalidValue
  | tooManyValues
  | displayHelp
  | displayVersion
deriving DecidableEq, Repr

namespace Refusal

def name : Refusal → Text
  | .argumentConflict => "ArgumentConflict".toList
  | .missingRequiredArgument => "MissingRequiredArgument".toList
  | .unknownArgument => "UnknownArgument".toList
  | .invalidValue => "InvalidValue".toList
  | .tooManyValues => "TooManyValues".toList
  | .displayHelp => "DisplayHelp".toList
  | .displayVersion => "DisplayVersion".toList

def exitCode : Refusal → Nat
  | .displayHelp => 0
  | .displayVersion => 0
  | _ => 2

end Refusal

namespace Arguments

def plain : Arguments where
  patterns := []
  root := none
  config := none
  noConfig := false
  extensions := []
  ignore := []
  check := false
  showDiff := false
  saveDiff := none
  year := none
  reportJson := none
  reportCsv := none
  verbose := 0
  quiet := false
  colors := .auto

def withDefaults (args : Arguments) : Arguments :=
  if args.patterns = [] then { args with patterns := [['.']] } else args

def consistent (args : Arguments) : Except Refusal Arguments :=
  if args.config.isSome ∧ args.noConfig then .error .argumentConflict
  else if args.quiet ∧ 0 < args.verbose then .error .argumentConflict
  else if (args.showDiff ∨ args.saveDiff.isSome) ∧ !args.check then
    .error .missingRequiredArgument
  else .ok args.withDefaults

end Arguments

namespace CommandLine

def usageLine : Text := "Usage: edheader [OPTIONS] [PATTERNS]...".toList

def version : Text := "edheader 0.1.0".toList

def help : List Text :=
  [ "Stamps source files with a per-directory copyright and summary header.",
    "",
    "  --root <DIR>            Directory that printed paths and rule prefixes start from",
    "  --config <FILE>         Configuration file",
    "  --no-config             Use the built-in rule table",
    "  --ext <EXT>             Only files with this extension (repeatable)",
    "  -i, --ignore <GLOB>     Leave out files (repeatable)",
    "  --check                 Report missing headers, change nothing",
    "  --show-diff             Show what would change (with --check)",
    "  --save-diff <FILE>      Save what would change (with --check)",
    "  --year <YEAR>           Copyright year",
    "  --report-json <OUTPUT>  Write a JSON report",
    "  --report-csv <OUTPUT>   Write a CSV report",
    "  -v, --verbose           Tell more (repeatable)",
    "  -q, --quiet             Tell errors only",
    "  --colors [<WHEN>]       auto, never or always",
    "  -h, --help              Print this text",
    "  -V, --version           Print the version" ].map String.toList

def refusalLines : Refusal → List Text
  | .displayHelp => usageLine :: [] :: help
  | .displayVersion => [version]
  | .argumentConflict => ["error: these arguments cannot be used together".toList, usageLine]
  | .missingRequiredArgument => ["error: a required argument is missing".toList, usageLine]
  | .unknownArgument => ["error: unexpected argument".toList, usageLine]
  | .invalidValue => ["error: invalid value for an argument".toList, usageLine]
  | .tooManyValues => ["error: unexpected value for an argument".toList, usageLine]

end CommandLine

end HeaderStamp
