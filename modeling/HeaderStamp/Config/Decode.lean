import HeaderStamp.Config.Basic
import HeaderStamp.Text.Quoted
import HeaderStamp.Toml.Reader

namespace HeaderStamp.Config

open Toml (Value Fields)

abbrev Decoded (α : Type) := Except DecodeError α

def describe? : Value → Option Text
  | .string t => some ("string ".toList ++ Text.quoted t)
  | .integer i =>
    let shown := ticked (Text.ofInt i)
    some <| "integer ".toList ++
      if -(Int.pow 2 63) ≤ i ∧ i < Int.pow 2 64 then shown
      else if i < Int.pow 2 127 then shown ++ " as i128".toList
      else shown ++ " as u128".toList
  | .float x => some ("floating point ".toList ++ ticked x.plain)
  | .overflow => none
  | .boolean b => some ("boolean ".toList ++ ticked (if b then "true" else "false").toList)
  | .datetime _ => some "map".toList
  | .array _ => some "sequence".toList
  | .tables _ => some "sequence".toList
  | .table _ _ => some "map".toList

def mismatch {α : Type} (value : Value) (expected : String) : Decoded α :=
  .error <|
    match describe? value with
    | some shown => .wrongKind shown expected.toList
    | none => .unusable

def textOf : Value → Decoded Text
  | .string t => .ok t
  | value => mismatch value "a string"

def itemsOf? : Value → Option (List Value)
  | .array items => some items
  | .tables items => some items
  | _ => none

def textsOf (value : Value) : Decoded (List Text) :=
  match itemsOf? value with
  | some items => items.mapM textOf
  | none => mismatch value "a sequence"

def unknownField {α : Type} (key : Text) (known : List String) : Decoded α :=
  .error (.unknownField key (known.map String.toList))

/-- The order in which the keys of a table are met. -/
def inOrder (fields : Fields) : Fields := fields.mergeSort fun a b ↦ Text.le a.1 b.1

/-- A record built up from its fields: known keys change it, others are refused. -/
def fold {α : Type} (set : α → Text → Value → Decoded α) (start : α) (fields : Fields) :
    Decoded α :=
  (inOrder fields).foldlM (fun record (key, value) ↦ set record key value) start

/-- A record given as a list: its values in the order of the fields, as many as there are. -/
def foldItems {α : Type} (setters : List (α → Value → Decoded α)) (start : α) (items : List Value) :
    Decoded α :=
  (setters.zip items).foldlM (fun record (set, value) ↦ set record value) start

def datetimeKey : Text := "$__toml_private_datetime".toList

def recordOf {α : Type} (expected : String) (set : α → Text → Value → Decoded α)
    (setters : List (α → Value → Decoded α)) (start : α) (value : Value) : Decoded α :=
  match value with
  | .table _ fields => fold set start fields
  | .datetime t => fold set start [(datetimeKey, .string t)]
  | _ =>
    match itemsOf? value with
    | some items => foldItems setters start items
    | none => mismatch value expected

namespace HeaderFields

def holder (h : HeaderConfig) (v : Value) : Decoded HeaderConfig :=
  (textOf v).map fun holder ↦ { h with holder }

def license (h : HeaderConfig) (v : Value) : Decoded HeaderConfig :=
  (textOf v).map fun license ↦ { h with license }

def year (h : HeaderConfig) (v : Value) : Decoded HeaderConfig :=
  (textOf v).map fun year ↦ { h with year := some year }

def extensions (h : HeaderConfig) (v : Value) : Decoded HeaderConfig :=
  (textsOf v).map fun extensions ↦ { h with extensions }

def set (h : HeaderConfig) (key : Text) (v : Value) : Decoded HeaderConfig :=
  if key = "holder".toList then holder h v
  else if key = "license".toList then license h v
  else if key = "year".toList then year h v
  else if key = "extensions".toList then extensions h v
  else unknownField key ["holder", "license", "year", "extensions"]

def read (v : Value) : Decoded HeaderConfig :=
  recordOf "struct HeaderConfig" set [holder, license, year, extensions] HeaderConfig.builtin v

end HeaderFields

namespace MarkerFields

def spdx (m : MarkerConfig) (v : Value) : Decoded MarkerConfig :=
  (textOf v).map fun spdx ↦ { m with spdx }

def directive (m : MarkerConfig) (v : Value) : Decoded MarkerConfig :=
  (textOf v).map fun directive ↦ { m with directive }

def altDirective (m : MarkerConfig) (v : Value) : Decoded MarkerConfig :=
  (textOf v).map fun altDirective ↦ { m with altDirective }

def benchSuffix (m : MarkerConfig) (v : Value) : Decoded MarkerConfig :=
  (textOf v).map fun benchSuffix ↦ { m with benchSuffix }

def testSuffixes (m : MarkerConfig) (v : Value) : Decoded MarkerConfig :=
  (textsOf v).map fun testSuffixes ↦ { m with testSuffixes }

def benchUsage (m : MarkerConfig) (v : Value) : Decoded MarkerConfig :=
  (textOf v).map fun benchUsage ↦ { m with benchUsage }

def testUsage (m : MarkerConfig) (v : Value) : Decoded MarkerConfig :=
  (textOf v).map fun testUsage ↦ { m with testUsage }

def set (m : MarkerConfig) (key : Text) (v : Value) : Decoded MarkerConfig :=
  if key = "spdx".toList then spdx m v
  else if key = "directive".toList then directive m v
  else if key = "alt-directive".toList then altDirective m v
  else if key = "bench-suffix".toList then benchSuffix m v
  else if key = "test-suffixes".toList then testSuffixes m v
  else if key = "bench-usage".toList then benchUsage m v
  else if key = "test-usage".toList then testUsage m v
  else
    unknownField key
      ["spdx", "directive", "alt-directive", "bench-suffix", "test-suffixes", "bench-usage",
        "test-usage"]

def read (v : Value) : Decoded MarkerConfig :=
  recordOf "struct MarkerConfig" set
    [spdx, directive, altDirective, benchSuffix, testSuffixes, benchUsage, testUsage]
    MarkerConfig.builtin v

end MarkerFields

structure PartialRule where
  component : Option Text
  usage : Option Text
  notes : Option Text

namespace PartialRule

def setComponent (r : PartialRule) (v : Value) : Decoded PartialRule :=
  (textOf v).map fun t ↦ { r with component := some t }

def setUsage (r : PartialRule) (v : Value) : Decoded PartialRule :=
  (textOf v).map fun t ↦ { r with usage := some t }

def setNotes (r : PartialRule) (v : Value) : Decoded PartialRule :=
  (textOf v).map fun t ↦ { r with notes := some t }

def set (r : PartialRule) (key : Text) (v : Value) : Decoded PartialRule :=
  if key = "component".toList then r.setComponent v
  else if key = "usage".toList then r.setUsage v
  else if key = "notes".toList then r.setNotes v
  else unknownField key ["component", "usage", "notes"]

/-- The rule, if nothing it needs is missing; the complaint names the first missing field, unless
the fields came without names. -/
def finish (named : Bool) (r : PartialRule) : Decoded RuleConfig :=
  let missing (field : String) : Decoded RuleConfig :=
    .error (if named then .missingField field.toList else .unusable)
  match r.component, r.usage with
  | none, _ => missing "component"
  | some _, none => missing "usage"
  | some component, some usage => .ok ⟨component, usage, r.notes⟩

def isTable : Value → Bool
  | .table _ _ => true
  | _ => false

def read (v : Value) : Decoded RuleConfig :=
  (recordOf "struct RuleConfig" set [setComponent, setUsage, setNotes] ⟨none, none, none⟩ v).bind
    (finish (isTable v))

end PartialRule

def rulesOf : Value → Decoded (List (Text × RuleConfig))
  | .table _ fields =>
    (inOrder fields).mapM fun (directory, value) ↦ (PartialRule.read value).map (directory, ·)
  | .datetime t => (PartialRule.read (.string t)).map fun rule ↦ [(datetimeKey, rule)]
  | value => mismatch value "a map"

def setField (config : Config) (key : Text) (v : Value) : Decoded Config :=
  if key = "header".toList then (HeaderFields.read v).map fun header ↦ { config with header }
  else if key = "markers".toList then
    (MarkerFields.read v).map fun markers ↦ { config with markers }
  else if key = "default".toList then
    (PartialRule.read v).map fun fallback ↦ { config with fallback }
  else if key = "rules".toList then (rulesOf v).map fun rules ↦ { config with rules }
  else unknownField key ["header", "markers", "default", "rules"]

/-- The configuration that a document describes: the built-in one with the document's values in the
place of its own. -/
def decode (fields : Fields) : Decoded Config := fold setField builtin fields

def parse (path content : Text) : Except ConfigError Config :=
  match Toml.read? content with
  | none => .error (.malformed path .illFormed)
  | some fields => (decode fields).mapError (.malformed path)

def accept (path content : Text) : Except ConfigError Config :=
  match parse path content with
  | .error e => .error e
  | .ok config =>
    match config.validate with
    | .error e => .error e
    | .ok () => .ok config

end HeaderStamp.Config
