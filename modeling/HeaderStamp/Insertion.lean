import HeaderStamp.Text.Basic

namespace HeaderStamp

inductive LineEnding
  | lf
  | crlf
deriving DecidableEq, Repr

def LineEnding.text : LineEnding → Text
  | .lf => ['\n']
  | .crlf => ['\r', '\n']

structure Detector where
  marker : Text
  window : Nat
deriving DecidableEq, Repr

namespace Detector

def defaultWindow : Nat := 5

def ofMarker (marker : Text) : Detector := ⟨marker, defaultWindow⟩

def finds (detector : Detector) (lines : List Text) : Bool :=
  (lines.take detector.window).any (Text.occursIn detector.marker)

end Detector

/-- Where headers go in a file, and how its lines are joined again. Any number of directives lead a
file, and one older directive may follow them. -/
structure Inserter where
  directive : Text
  altDirective : Text
  ending : LineEnding
deriving DecidableEq, Repr

namespace Inserter

def startsWith (mark line : Text) : Bool := mark ≠ [] && mark.isPrefixOf line

def leading (test : Text → Bool) (lines : List Text) : Nat := (lines.takeWhile test).length

/-- Index of the first line below the directives, the older directive and the blank lines. -/
def index (inserter : Inserter) (lines : List Text) : Nat :=
  let directives := leading (startsWith inserter.directive) lines
  let older := leading (startsWith inserter.altDirective) ((lines.drop directives).take 1)
  let blanks := leading Text.isBlank (lines.drop (directives + older))
  directives + older + blanks

/-- Does the content carry a header, at its top or where one would go? -/
def hasHeader (inserter : Inserter) (detector : Detector) (lines : List Text) : Bool :=
  detector.finds lines || detector.finds (lines.drop (inserter.index lines))

/-- The lines with the header at the insertion index, and a blank line below it unless it is last. -/
def splice (inserter : Inserter) (header lines : List Text) : List Text :=
  let index := inserter.index lines
  let below := lines.drop index
  lines.take index ++ header ++ (if below = [] then [] else [[]]) ++ below

def insert? (inserter : Inserter) (detector : Detector) (header : List Text) (content : Text) :
    Option Text :=
  let lines := Text.lines content
  if inserter.hasHeader detector lines then none
  else
    some (Text.join inserter.ending.text (inserter.splice header lines) ++ inserter.ending.text)

end Inserter

structure Insertion where
  content : Text
  changed : Bool
deriving DecidableEq, Repr

def Inserter.insert (inserter : Inserter) (detector : Detector) (header : List Text)
    (content : Text) : Insertion :=
  match inserter.insert? detector header content with
  | none => ⟨content, false⟩
  | some new => ⟨new, new != content⟩

end HeaderStamp
