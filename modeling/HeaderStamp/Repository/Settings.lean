import HeaderStamp.Text.Basic
import HeaderStamp.Decimal.Binary64

namespace HeaderStamp.Repository

/-- The settings of a repository, by lowercase name. A name without `=` has no value. -/
abbrev Settings := List (Text × Option Text)

def isAsciiAlphanumeric (c : Char) : Bool :=
  Binary64.isDigit c || ('a' ≤ c && c ≤ 'z') || ('A' ≤ c && c ≤ 'Z')

def isNameChar (c : Char) : Bool := isAsciiAlphanumeric c || c = '-'

def isBlankChar (c : Char) : Bool := c = ' ' || c = '\t' || c = '\r' || c = '\x0b' || c = '\x0c'

def skipBlanks (t : Text) : Text := t.dropWhile isBlankChar

def subsection? : Text → Option (Text × Text)
  | [] => none
  | ['"'] => none
  | '"' :: ']' :: rest => some ([], rest)
  | '"' :: _ => none
  | '\\' :: c :: rest => (subsection? rest).map fun (t, after) ↦ (c :: t, after)
  | c :: rest => (subsection? rest).map fun (t, after) ↦ (c :: t, after)

def section? (t : Text) : Option (Text × Text) :=
  let name := t.takeWhile fun c ↦ isNameChar c || c = '.'
  match t.drop name.length with
  | ']' :: rest => some (Binary64.asciiLower name, rest)
  | c :: rest =>
    if isBlankChar c then
      match skipBlanks rest with
      | '"' :: inner =>
        (subsection? inner).map fun (sub, after) ↦
          (Binary64.asciiLower name ++ '.' :: sub, after)
      | _ => none
    else none
  | [] => none

/-- The value on a line: quotes taken away, escapes resolved, a comment and blanks at the end cut
off. The flag tells that a quote is open. -/
def value? (quoted : Bool) : Text → Option Text
  | [] => if quoted then none else some []
  | '"' :: rest => value? (!quoted) rest
  | ['\\'] => some []
  | '\\' :: c :: rest =>
    let plain :=
      if c = 'n' then some '\n' else if c = 't' then some '\t' else if c = 'b' then some '\x08'
      else if c = '"' ∨ c = '\\' then some c else none
    plain.bind fun d ↦ (value? quoted rest).map (d :: ·)
  | c :: rest =>
    if !quoted ∧ (c = '#' ∨ c = ';') then some []
    else (value? quoted rest).map (c :: ·)

def assignment? (line : Text) : Option (Text × Option Text) :=
  let name := line.takeWhile isNameChar
  if name = [] then none
  else
    match skipBlanks (line.drop name.length) with
    | [] => some (Binary64.asciiLower name, none)
    | '=' :: rest =>
      (value? false (skipBlanks rest)).map fun v ↦ (Binary64.asciiLower name, some (Text.trimEnd v))
    | c :: _ => if c = '#' ∨ c = ';' then some (Binary64.asciiLower name, none) else none

def settingsFrom? (current : Text) : List Text → Option Settings
  | [] => some []
  | line :: rest =>
    let entry? (name : Text) (t : Text) : Option Settings :=
      match skipBlanks t with
      | [] => settingsFrom? name rest
      | c :: more =>
        if c = '#' ∨ c = ';' then settingsFrom? name rest
        else
          (assignment? (c :: more)).bind fun (key, v) ↦
            (settingsFrom? name rest).map ((name ++ '.' :: key, v) :: ·)
    match skipBlanks line with
    | '[' :: header => (section? header).bind fun (name, after) ↦ entry? name after
    | t => entry? current t

def settings? (t : Text) : Option Settings := settingsFrom? [] (Text.lines t)

def Settings.last? (settings : Settings) (name : String) : Option (Option Text) :=
  settings.reverse.lookup name.toList

def number? (t : Text) : Option Int :=
  let (negative, rest) := Binary64.cutSign t
  let digits := rest.takeWhile Binary64.isDigit
  let unit? : Option Nat :=
    match rest.drop digits.length with
    | [] => some 1
    | ['k'] => some 1024
    | ['K'] => some 1024
    | ['m'] => some (Nat.pow 1024 2)
    | ['M'] => some (Nat.pow 1024 2)
    | ['g'] => some (Nat.pow 1024 3)
    | ['G'] => some (Nat.pow 1024 3)
    | _ => none
  if digits = [] then none
  else
    unit?.map fun unit ↦
      let n : Int := Binary64.natOfDigits digits * unit
      if negative then -n else n

/-- A truth value; a name without a value counts as true. -/
def truth? : Option Text → Option Bool
  | none => some true
  | some t =>
    let word := Binary64.asciiLower t
    if ["true", "yes", "on"].any fun w ↦ w.toList = word then some true
    else if ["false", "no", "off", ""].any fun w ↦ w.toList = word then some false
    else (number? t).map (· ≠ 0)

end HeaderStamp.Repository
