import HeaderStamp.FileTree.Basic

namespace HeaderStamp

def ticked (t : Text) : Text := '\x60' :: t ++ ['\x60']

/-- Why a text is no configuration. It is unusable where a value is missing or too large and no
field can be named. -/
inductive DecodeError
  | illFormed
  | unusable
  | wrongKind (value expected : Text)
  | unknownField (key : Text) (known : List Text)
  | missingField (name : Text)
deriving DecidableEq, Repr

def DecodeError.words? : DecodeError → Option Text
  | .illFormed => none
  | .unusable => none
  | .wrongKind value expected =>
    some ("invalid type: ".toList ++ value ++ ", expected ".toList ++ expected)
  | .unknownField key known =>
    some ("unknown field ".toList ++ ticked key ++ ", expected one of ".toList ++
      Text.join ", ".toList (known.map ticked))
  | .missingField name => some ("missing field ".toList ++ ticked name)

inductive ConfigError
  | unreadable (path : Text) (fault : TextFault)
  | malformed (path : Text) (error : DecodeError)
  | ambiguous (directory first second : Text)
  | invalidRule (directory reason : Text)
  | invalidSetting (key reason : Text)
deriving DecidableEq, Repr

namespace ConfigError

def faultMessage : TextFault → Text
  | .path fault => fault.message
  | .encoding _ => "stream did not contain valid UTF-8".toList

def decodeMessage (error : DecodeError) : Text := error.words?.getD "invalid document".toList

def message : ConfigError → Text
  | .unreadable path fault =>
    "Failed to read config file '".toList ++ path ++ "': ".toList ++ faultMessage fault
  | .malformed path error =>
    "Failed to parse config file '".toList ++ path ++ "': ".toList ++ decodeMessage error
  | .ambiguous directory first second =>
    "Ambiguous directory rules: '".toList ++ first ++ "' and '".toList ++ second ++
      "' both resolve to prefix '".toList ++ directory ++ "'".toList
  | .invalidRule directory reason =>
    "Invalid rule for '".toList ++ directory ++ "': ".toList ++ reason
  | .invalidSetting key reason => "Invalid setting '".toList ++ key ++ "': ".toList ++ reason

def causes : ConfigError → List Text
  | .unreadable _ fault => [faultMessage fault]
  | .malformed _ error => [decodeMessage error]
  | _ => []

end ConfigError

end HeaderStamp
