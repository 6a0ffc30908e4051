import HeaderStamp.Json.Reader
import HeaderStamp.Report.Summary
import HeaderStamp.Text.Quoted

namespace HeaderStamp.FileReport

open Json (Value)

inductive DecodeError
  | wrongKind (value expected : Text)
  | unknownAction (name : Text)
  | manyActions
  | missingField (name : Text)
  | tooShort (length : Nat)
  | tooLong (length : Nat)
deriving DecidableEq, Repr

def tick (t : Text) : Text := '\x60' :: t ++ ['\x60']

def DecodeError.message : DecodeError → Text
  | .wrongKind value expected =>
    "invalid type: ".toList ++ value ++ ", expected ".toList ++ expected
  | .unknownAction name =>
    "unknown variant ".toList ++ tick name ++ ", expected one of ".toList ++
      Text.join ", ".toList (Action.all.map fun action ↦ tick action.name)
  | .manyActions => "invalid value: map, expected map with a single key".toList
  | .missingField name => "missing field ".toList ++ tick name
  | .tooShort length =>
    "invalid length ".toList ++ Text.ofNat length ++
      ", expected struct FileReport with 5 elements".toList
  | .tooLong length =>
    "invalid length ".toList ++ Text.ofNat length ++ ", expected fewer elements in array".toList

abbrev Decoded (α : Type) := Except DecodeError α

def describe : Value → Text
  | .null => "null".toList
  | .boolean b => "boolean ".toList ++ tick (if b then "true" else "false").toList
  | .integer i => "integer ".toList ++ tick (Text.ofInt i)
  | .float x => "floating point ".toList ++ tick x.plain
  | .string t => "string ".toList ++ Text.quoted t
  | .array _ => "sequence".toList
  | .object _ => "map".toList

def mismatch {α : Type} (value : Value) (expected : String) : Decoded α :=
  .error (.wrongKind (describe value) expected.toList)

def readText : Value → Decoded Text
  | .string t => .ok t
  | value => mismatch value "a string"

def readOptional : Value → Decoded (Option Text)
  | .null => .ok none
  | value => (readText value).map some

def readName (t : Text) : Decoded Action :=
  match Action.ofName? t with
  | some action => .ok action
  | none => .error (.unknownAction t)

def readAction : Value → Decoded Action
  | .string t => readName t
  | .object [(key, value)] =>
    match readName key with
    | .error e => .error e
    | .ok action =>
      match value with
      | .null => .ok action
      | other => mismatch other "unit"
  | .object _ => .error .manyActions
  | value => mismatch value "string or map"

structure Fields where
  path : Option Text
  relative : Option Text
  component : Option (Option Text)
  action : Option Action
  error : Option (Option Text)

def Fields.none : Fields := ⟨Option.none, Option.none, Option.none, Option.none, Option.none⟩

def setField (fields : Fields) (key : Text) (value : Value) : Decoded Fields :=
  if key = "path".toList then (readText value).map fun t ↦ { fields with path := some t }
  else if key = "relative_path".toList then
    (readText value).map fun t ↦ { fields with relative := some t }
  else if key = "component".toList then
    (readOptional value).map fun t ↦ { fields with component := some t }
  else if key = "action".toList then
    (readAction value).map fun action ↦ { fields with action := some action }
  else if key = "error".toList then
    (readOptional value).map fun t ↦ { fields with error := some t }
  else .ok fields

def missing {α : Type} (name : String) : Decoded α := .error (.missingField name.toList)

def finish (fields : Fields) : Decoded FileReport :=
  match fields.path, fields.relative, fields.action with
  | none, _, _ => missing "path"
  | _, none, _ => missing "relative_path"
  | _, _, none => missing "action"
  | some path, some relative, some action =>
    .ok ⟨path, relative, fields.component.getD none, action, fields.error.getD none⟩

def order : List Text :=
  ["path".toList, "relative_path".toList, "component".toList, "action".toList, "error".toList]

/-- The record that a JSON value stands for: an object by its fields in the order of their names,
unknown ones passed over, or a list of all five values. -/
def ofJson : Value → Decoded FileReport
  | .object given =>
    ((given.mergeSort fun a b ↦ Text.le a.1 b.1).foldlM
      (fun fields (key, value) ↦ setField fields key value) Fields.none).bind finish
  | .array items =>
    ((order.zip items).foldlM (fun fields (key, value) ↦ setField fields key value)
      Fields.none).bind fun fields ↦
        if items.length < order.length then
          .error (.tooShort items.length)
        else if order.length < items.length then
          .error (.tooLong items.length)
        else finish fields
  | value => mismatch value "struct FileReport"

end HeaderStamp.FileReport

namespace HeaderStamp.Report

/-- A JSON report as it is read back: the records and, without the seconds, the counts. -/
structure Document where
  reports : List FileReport
  total : Int
  added : Int
  missing : Int
  already : Int
  failed : Int
  timestamp : Int
deriving DecidableEq, Repr

def field? (name : String) : Json.Value → Option Json.Value
  | .object fields => fields.lookup name.toList
  | _ => none

def integer? (name : String) (value : Json.Value) : Option Int :=
  match field? name value with
  | some (.integer i) => some i
  | _ => none

def reports? (value : Json.Value) : Option (List FileReport) :=
  match field? "files" value with
  | some (.array items) => items.mapM fun item ↦ (FileReport.ofJson item).toOption
  | _ => none

def parse? (t : Text) : Option Document := do
  let value ← Json.parse? t
  let reports ← reports? value
  let summary ← field? "summary" value
  return {
    reports
    total := ← integer? "total_files" summary
    added := ← integer? "headers_added" summary
    missing := ← integer? "headers_missing" summary
    already := ← integer? "already_annotated" summary
    failed := ← integer? "failed" summary
    timestamp := ← integer? "timestamp" summary }

end HeaderStamp.Report
