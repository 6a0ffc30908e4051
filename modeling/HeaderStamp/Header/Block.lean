import HeaderStamp.Text.Case

namespace HeaderStamp

/-- What the owning component contributes to a header. The fallback rule has no directory. -/
structure Metadata where
  directory? : Option Text
  component : Text
  usage : Text
  notes : Text
deriving DecidableEq, Repr

namespace Header

def fallbackFeature : Text := "main".toList

def isSeparator (c : Char) : Bool := c = '_' || c = '-' || Text.isSpace c

/-- Every run of separators made one blank; the flag tells that such a run is under way. -/
def collapse (inRun : Bool) : Text → Text
  | [] => []
  | c :: rest =>
    if isSeparator c then
      if inRun then collapse true rest else ' ' :: collapse true rest
    else c :: collapse false rest

def featureLabel (stem : Text) : Text :=
  let label := Text.trim (collapse false stem)
  if label.any Text.isAlphanumeric then label else fallbackFeature

def featureSlot : Text := "\x7bfeature\x7d".toList

def componentSlot : Text := "\x7bcomponent\x7d".toList

/-- The two slots of a template filled in one pass from the left. So many characters of the text
belong to a slot that is filled already. Text that was put in is not looked at again. -/
def fillFrom (feature component : Text) : Nat → Text → Text
  | _, [] => []
  | skip + 1, _ :: rest => fillFrom feature component skip rest
  | 0, c :: rest =>
    if featureSlot.isPrefixOf (c :: rest) then
      feature ++ fillFrom feature component (featureSlot.length - 1) rest
    else if componentSlot.isPrefixOf (c :: rest) then
      component ++ fillFrom feature component (componentSlot.length - 1) rest
    else c :: fillFrom feature component 0 rest

def renderUsage (template feature component : Text) : Text := fillFrom feature component 0 template

end Header

structure HeaderSettings where
  commentMark : Text
  holder : Text
  license : Text
  year : Text
  marker : Text
  benchSuffix : Text
  testSuffixes : List Text
  benchUsage : Text
  testUsage : Text
deriving DecidableEq, Repr

inductive FileKind
  | benchmark
  | test
  | production
deriving DecidableEq, Repr

def FileKind.name : FileKind → Text
  | .benchmark => "benchmark".toList
  | .test => "test".toList
  | .production => "production".toList

/-- The first of the suffixes that the name ends with, taken away. Empty suffixes do not count. -/
def stripFirst? (suffixes : List Text) (name : Text) : Option Text :=
  (suffixes.filter (· ≠ [])).findSome? fun suffix ↦ Text.dropEnding? suffix name

namespace HeaderSettings

/-- The kind of a base name and what is left of the name. Benchmarks go first, since their suffix
mostly ends in a test suffix. -/
def classify (settings : HeaderSettings) (name : Text) : FileKind × Text :=
  match stripFirst? [settings.benchSuffix] name with
  | some stem => (.benchmark, stem)
  | none =>
    match stripFirst? settings.testSuffixes name with
    | some stem => (.test, stem)
    | none => (.production, name)

def summaryLine (kind : FileKind) (feature component : Text) : Text :=
  match kind with
  | .benchmark =>
    "Benchmarks ".toList ++ feature ++ " performance within the ".toList ++ component ++ ['.']
  | .test =>
    "Exercises ".toList ++ feature ++ " behaviour to ensure the ".toList ++ component ++
      " remains reliable.".toList
  | .production =>
    "Implements ".toList ++ feature ++ " capabilities for the ".toList ++ component ++ ['.']

def usageLine (settings : HeaderSettings) (kind : FileKind) (feature : Text) (metadata : Metadata) :
    Text :=
  match kind with
  | .benchmark => settings.benchUsage
  | .test => settings.testUsage
  | .production => Header.renderUsage metadata.usage feature metadata.component

def header (settings : HeaderSettings) (path name : Text) (metadata : Metadata) : List Text :=
  let (kind, stem) := settings.classify name
  let feature := Header.featureLabel stem
  let comment (t : Text) : Text := settings.commentMark ++ ' ' :: t
  [ comment ("Copyright © ".toList ++ settings.year ++ ' ' :: settings.holder),
    comment (settings.marker ++ ": ".toList ++ settings.license),
    settings.commentMark,
    comment ("File: ".toList ++ path),
    comment ("Summary: ".toList ++ summaryLine kind feature metadata.component),
    comment ("Usage: ".toList ++ usageLine settings kind feature metadata),
    comment ("Notes: ".toList ++ metadata.notes) ]

end HeaderSettings

end HeaderStamp
