import HeaderStamp.Console.Event
import HeaderStamp.Repository.Discovery

namespace HeaderStamp

inductive WorkspaceKind
  | explicit
  | git
  | directory
deriving DecidableEq, Repr

def WorkspaceKind.name : WorkspaceKind → Text
  | .explicit => "explicit".toList
  | .git => "git".toList
  | .directory => "directory".toList

structure Workspace where
  kind : WorkspaceKind
  root : Text
deriving DecidableEq, Repr

inductive WorkspaceError
  | notDirectory (root : Text)
  | brokenRepository (start : Text)
deriving DecidableEq, Repr

def WorkspaceError.message : WorkspaceError → Text
  | .notDirectory root => "Root is not a directory: ".toList ++ root
  | .brokenRepository start => "Failed to open git repository above ".toList ++ start

namespace Workspace

def ofFinding (machine : Machine) : Repository.Finding → Except WorkspaceError Workspace
  | .nothing => .ok ⟨.directory, machine.cwdText⟩
  | .bare _ => .ok ⟨.directory, machine.cwdText⟩
  | .tree root => .ok ⟨.git, (machine.canonical? root).getD root⟩
  | .broken => .error (.brokenRepository machine.cwdText)

/-- The root that was asked for, else the repository around the working directory, else that
directory. -/
def resolve (machine : Machine) (explicit : Option Text) : Except WorkspaceError Workspace :=
  match explicit with
  | some root =>
    let root := machine.absolute root
    if machine.isFolder root then .ok ⟨.explicit, root⟩ else .error (.notDirectory root)
  | none => ofFinding machine (Repository.discover machine)

def events (machine : Machine) (explicit : Option Text) : List Event :=
  match explicit with
  | some _ => []
  | none =>
    match Repository.discover machine with
    | .nothing => [.detail ("No git repository found above ".toList ++ machine.cwdText)]
    | .bare directory =>
      [.detail ("Git repository at ".toList ++ directory ++ " is bare".toList)]
    | .tree root =>
      [.detail ("Git repository root: ".toList ++ (machine.canonical? root).getD root)]
    | .broken => []

end Workspace

end HeaderStamp
