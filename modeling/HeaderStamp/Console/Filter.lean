import HeaderStamp.Text.Case
import HeaderStamp.Decimal.Binary64

namespace HeaderStamp

inductive Level
  | error
  | warn
  | info
  | debug
  | trace
deriving DecidableEq, Repr

def Level.rank : Level → Nat
  | .error => 1
  | .warn => 2
  | .info => 3
  | .debug => 4
  | .trace => 5

inductive Topic
  | run
  | processing
  | collecting
deriving DecidableEq, Repr

def Topic.path : Topic → Text
  | .run => "edheader::cli::annotate".toList
  | .processing => "edheader::processor".toList
  | .collecting => "edheader::processor::file_collector".toList

/-- Lets pass what is about a topic with this start, up to a rank. Without a start it is about
every topic. -/
structure Directive where
  start : Option Text
  rank : Nat
deriving DecidableEq, Repr

structure Filter where
  directives : List Directive
deriving DecidableEq, Repr

namespace Filter

def ranks : List (String × Nat) :=
  [("error", 1), ("warn", 2), ("info", 3), ("debug", 4), ("trace", 5), ("off", 0)]

/-- A level by its number or its name; the empty word is the level of errors. -/
def rank? (word : Text) : Option Nat :=
  let digits := if word.head? = some '+' then word.tail else word
  let number := Binary64.natOfDigits digits
  if digits ≠ [] ∧ digits.all Binary64.isDigit ∧ number ≤ 5 then some number
  else if word = [] then some 1
  else ranks.findSome? fun (name, rank) ↦
    if name.toList = Binary64.asciiLower word then some rank else none

/-- A part of a filter while it is read. Positions count the characters read so far. -/
inductive Scan
  | start
  | word
  | span (first : Nat)
  | field
  | fields
  | target
  | level (first : Nat)

structure Draft where
  scan : Scan
  target : Option Text
  inSpan : Bool

/-- Reads one character of a directive. The positions are those of the trimmed text, while names
are cut out of the text as it was written. -/
def advance (whole : Text) (index : Nat) (draft : Draft) (c : Char) : Option Draft :=
  match draft.scan with
  | .start =>
    if c = '[' then some { draft with scan := .span (index + 1) }
    else if c = '-' ∨ c = ':' ∨ c = '_' ∨ Text.isAlphanumeric c then some { draft with scan := .word }
    else none
  | .word =>
    if c = '=' then some { draft with scan := .level (index + 1), target := some (whole.take index) }
    else if c = '[' then
      some { draft with scan := .span (index + 1), target := some (whole.take index) }
    else some draft
  | .span first =>
    if c = ']' then some { draft with scan := .target, inSpan := true }
    else if c = '\x7b' then
      some { draft with scan := .field, inSpan := draft.inSpan || first != index }
    else some draft
  | .field => if c = '\x7d' then some { draft with scan := .fields, inSpan := true } else some draft
  | .fields => if c = ']' then some { draft with scan := .target } else none
  | .target => if c = '=' then some { draft with scan := .level (index + 1) } else some draft
  | .level _ => some draft

def scanAll (whole : Text) : Nat → Draft → Text → Option Draft
  | _, draft, [] => some draft
  | index, draft, c :: rest =>
    (advance whole index draft c).bind fun next ↦ scanAll whole (index + 1) next rest

/-- One directive of a filter: none if it is ill-formed, and no directive at all if it is about
spans, of which there are none. -/
def directive? (whole : Text) : Option (Option Directive) :=
  (scanAll whole 0 ⟨.start, none, false⟩ (Text.trim whole)).bind fun draft ↦
    let made (directive : Directive) := some (if draft.inSpan then none else some directive)
    match draft.scan with
    | .word =>
      match rank? whole with
      | some rank => made ⟨none, rank⟩
      | none => made ⟨some whole, 5⟩
    | .level first =>
      let word := whole.drop first
      if word = [] then made ⟨draft.target, 5⟩
      else (rank? word).bind fun rank ↦ made ⟨draft.target, rank⟩
    | .target => made ⟨draft.target, 5⟩
    | _ => none

def parse? (t : Text) : Option Filter :=
  let parts := (Text.split ',' t).filter (· ≠ [])
  (parts.mapM directive?).map fun found ↦
    if parts = [] then ⟨[⟨none, 1⟩]⟩ else ⟨found.filterMap id⟩

def defaultWord (quiet : Bool) (verbose : Nat) : Text :=
  if quiet then "error".toList
  else
    match verbose with
    | 0 => "warn".toList
    | 1 => "info".toList
    | 2 => "debug".toList
    | _ => "trace".toList

def ofFlags (quiet : Bool) (verbose : Nat) : Filter :=
  ⟨[⟨none, (rank? (defaultWord quiet verbose)).getD 2⟩]⟩

def choose (written : Option Text) (quiet : Bool) (verbose : Nat) : Filter :=
  (written.bind parse?).getD (ofFlags quiet verbose)

def reach (directive : Directive) : Nat :=
  match directive.start with
  | none => 0
  | some start => start.length + 1

/-- The directive with the longest start decides, the later one of two alike. -/
def ruling? (filter : Filter) (topic : Topic) : Option Directive :=
  let about := filter.directives.filter fun d ↦ (d.start.getD []).isPrefixOf topic.path
  about.foldl
    (fun best d ↦
      match best with
      | none => some d
      | some b => if reach d < reach b then some b else some d)
    none

def passes (filter : Filter) (level : Level) (topic : Topic) : Bool :=
  match filter.ruling? topic with
  | none => false
  | some d => level.rank ≤ d.rank

end Filter

end HeaderStamp
