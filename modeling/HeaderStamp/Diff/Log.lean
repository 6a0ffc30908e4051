import HeaderStamp.Diff.Unified
import HeaderStamp.FileTree.Machine

namespace HeaderStamp

structure DiffSettings where
  shown : Bool
  file : Option Text
deriving DecidableEq, Repr

inductive DiffError
  | create (path : Text) (fault : PathFault)
  | append (path : Text) (fault : PathFault)
deriving DecidableEq, Repr

namespace DiffError

def message : DiffError → Text
  | .create path _ => "Failed to create diff file: ".toList ++ path
  | .append path _ => "Failed to open diff file: ".toList ++ path

def causes : DiffError → List Text
  | .create _ fault => [fault.message]
  | .append _ fault => [fault.message]

def full (error : DiffError) : Text := Text.join ": ".toList (error.message :: error.causes)

end DiffError

namespace DiffSettings

def isEnabled (settings : DiffSettings) : Bool := settings.shown || settings.file.isSome

/-- The machine with an empty file of comparisons, so that a run starts afresh. -/
def begin (settings : DiffSettings) (machine : Machine) : Except DiffError Machine :=
  match settings.file with
  | none => .ok machine
  | some path => (machine.write path []).mapError (.create path)

def save (settings : DiffSettings) (machine : Machine) (label old new : Text) :
    Except DiffError Machine :=
  match settings.file with
  | none => .ok machine
  | some path =>
    (machine.append path (Utf8.encode (Diff.unified label old new))).mapError (.append path)

def events (settings : DiffSettings) (path old new : Text) : List Event :=
  if settings.shown then [.comparison path (Diff.allChanges old new)] else []

end DiffSettings

end HeaderStamp
