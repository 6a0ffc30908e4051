import HeaderStamp.Text.Basic

namespace HeaderStamp

/-- One step of a path. `.` counts at the start of a relative path only. -/
inductive Component
  | root
  | here
  | parent
  | name (text : Text)
deriving DecidableEq, Repr

namespace Component

def text : Component → Text
  | .root => ['/']
  | .here => ['.']
  | .parent => ['.', '.']
  | .name t => t

def rank : Component → Nat
  | .root => 0
  | .here => 1
  | .parent => 2
  | .name _ => 3

def le : Component → Component → Bool
  | .name a, .name b => Text.le a b
  | a, b => a.rank ≤ b.rank

def ofPiece? (piece : Text) : Option Component :=
  if piece = [] ∨ piece = ['.'] then none
  else if piece = ['.', '.'] then some .parent
  else some (.name piece)

end Component

namespace Path

def isAbsolute (path : Text) : Bool := path.head? = some '/'

/-- The components of a path. Repeated and trailing slashes and inner `.` steps vanish. -/
def components (path : Text) : List Component :=
  let pieces := Text.split '/' path
  let steps := pieces.filterMap Component.ofPiece?
  if isAbsolute path then .root :: steps
  else if pieces.head? = some ['.'] then .here :: steps
  else steps

def leComponents : List Component → List Component → Bool
  | [], _ => true
  | _ :: _, [] => false
  | a :: as, b :: bs => if a = b then leComponents as bs else a.le b

def le (a b : Text) : Bool := leComponents (components a) (components b)

def ofComponents : List Component → Text
  | .root :: steps => '/' :: Text.join ['/'] (steps.map Component.text)
  | steps => Text.join ['/'] (steps.map Component.text)

def append (base path : Text) : Text :=
  if isAbsolute path then path
  else if base = [] ∨ base.getLast? = some '/' then base ++ path
  else base ++ '/' :: path

def fileName? (path : Text) : Option Text :=
  match (components path).getLast? with
  | some (.name n) => some n
  | _ => none

/-- A name cut at its last dot. A name without a dot, or with one at its start only, has none. -/
def cutAtDot (name : Text) : Text × Option Text :=
  let pieces := Text.split '.' name
  match pieces.getLast?, pieces.dropLast with
  | _, [] => (name, none)
  | _, [[]] => (name, none)
  | none, _ => (name, none)
  | some ext, stems => (Text.join ['.'] stems, some ext)

def stem? (path : Text) : Option Text := (fileName? path).map fun n ↦ (cutAtDot n).1

def extension? (path : Text) : Option Text := (fileName? path).bind fun n ↦ (cutAtDot n).2

def slashOf (steps : List Component) : Text :=
  Text.join ['/'] <| steps.filterMap fun
    | .name n => some n
    | .parent => some ['.', '.']
    | _ => none

def slash (path : Text) : Text := slashOf (components path)

def stepless (piece : Text) : Bool := piece = [] || piece = ['.']

def dropSteps : Nat → List Text → List Text
  | _, [] => []
  | 0, pieces => pieces
  | n + 1, piece :: pieces =>
    if stepless piece then dropSteps (n + 1) pieces else dropSteps n pieces

def dropTrailing (pieces : List Text) : List Text := (pieces.reverse.dropWhile stepless).reverse

/-- The path below the base, spelled as it was, if the base's components lead it. -/
def below? (path base : Text) : Option Text :=
  let steps := components base
  let pieces := dropTrailing (Text.split '/' path)
  if steps = [] ∧ isAbsolute path then some ('/' :: Text.join ['/'] pieces.tail)
  else if steps.isPrefixOf (components path) then
    let names := steps.filter fun s ↦ s != .root && s != .here
    some <| Text.join ['/'] ((dropSteps names.length pieces).dropWhile stepless)
  else none

/-- The steps from a base to a path once their common start is gone. There are none if the base
climbs with `..` where the two part. -/
def detour? : List Component → List Component → Option (List Component)
  | [], base => some (base.map fun _ ↦ .parent)
  | a :: path, [] => some (a :: path)
  | a :: path, .here :: base => (detour? path base).map (a :: ·)
  | _ :: _, .parent :: _ => none
  | a :: path, _ :: base => some (.parent :: base.map (fun _ ↦ .parent) ++ a :: path)

def stepsBetween? : List Component → List Component → Option (List Component)
  | a :: path, b :: base =>
    if a = b then stepsBetween? path base else detour? (a :: path) (b :: base)
  | path, base => detour? path base

def difference? (path base : Text) : Option Text :=
  if isAbsolute base then
    (stepsBetween? (components path) (components base)).map ofComponents
  else some path

def tidy (path : Text) : Text :=
  match (components path).filter (· != .here) with
  | [] => ['.']
  | steps => ofComponents steps

def relativeTo (path base : Text) : Text :=
  if isAbsolute path then
    match below? path base with
    | some rest => rest
    | none =>
      match difference? path base with
      | some route => route
      | none => tidy path
  else tidy path

end Path

end HeaderStamp
