import HeaderStamp.FileTree.Basic
import HeaderStamp.Paths

namespace HeaderStamp

structure Machine where
  tree : Folder
  cwd : Location
deriving DecidableEq, Repr

/-- Where a path leads. An absent entry is one that is missing in a folder that is there. -/
inductive Place
  | present (location : Location) (node : Node)
  | absent (folder : Location) (name : Text)
deriving DecidableEq, Repr

namespace Machine

/-- The steps of a path to be taken one after the other. A slash at the end asks for a directory, as
one more `.` step does. -/
def steps (path : Text) : List Text :=
  let pieces := (Text.split '/' path).filter (· ≠ [])
  if path.getLast? = some '/' then pieces ++ [['.']] else pieces

inductive Reach
  | arrived (place : Place)
  | atLink (folder : Location) (target : Text) (rest : List Text)
  | refused (fault : PathFault)

/-- Walks along the steps up to the first link. A link at the very end counts if it is to be
followed. -/
def advance (tree : Folder) (follow : Bool) : Location → List Text → Reach
  | here, [] =>
    match tree.at? here with
    | some node => .arrived (.present here node)
    | none => .refused .notFound
  | here, step :: rest =>
    match tree.at? here with
    | some (.folder inside) =>
      if step = ['.'] then advance tree follow here rest
      else if step = ['.', '.'] then advance tree follow here.dropLast rest
      else
        match inside.find? step with
        | none => if rest = [] then .arrived (.absent here step) else .refused .notFound
        | some (.link target) =>
          if rest = [] ∧ !follow then .arrived (.present (here ++ [step]) (.link target))
          else .atLink here target rest
        | some _ => advance tree follow (here ++ [step]) rest
    | some _ => .refused .notDirectory
    | none => .refused .notFound

def linkLimit : Nat := 40

/-- Follows links as long as the budget lasts. -/
def follow (tree : Folder) (last : Bool) : Nat → Location → List Text → Except PathFault Place
  | budget, here, rest =>
    match advance tree last here rest with
    | .arrived place => .ok place
    | .refused fault => .error fault
    | .atLink folder target after =>
      match budget with
      | 0 => .error .tooManyLinks
      | budget + 1 =>
        if target = [] then .error .notFound
        else
          follow tree last budget (if Path.isAbsolute target then [] else folder)
            (steps target ++ after)

def locateWith (machine : Machine) (last : Bool) (path : Text) : Except PathFault Place :=
  if path = [] then .error .notFound
  else
    let start := if Path.isAbsolute path then [] else machine.cwd
    follow machine.tree last linkLimit start (steps path)

def locate (machine : Machine) (path : Text) : Except PathFault Place :=
  machine.locateWith true path

def node? (machine : Machine) (path : Text) : Option Node :=
  match machine.locate path with
  | .ok (.present _ node) => some node
  | _ => none

/-- The node of a path whose last step is not followed if it is a link. -/
def ownNode? (machine : Machine) (path : Text) : Option Node :=
  match machine.locateWith false path with
  | .ok (.present _ node) => some node
  | _ => none

def pathExists (machine : Machine) (path : Text) : Bool := (machine.node? path).isSome

def isFile (machine : Machine) (path : Text) : Bool :=
  match machine.node? path with
  | some (.file _) => true
  | _ => false

def isFolder (machine : Machine) (path : Text) : Bool :=
  match machine.node? path with
  | some (.folder _) => true
  | _ => false

def locationText (location : Location) : Text := '/' :: Text.join ['/'] location

def cwdText (machine : Machine) : Text := locationText machine.cwd

def canonical? (machine : Machine) (path : Text) : Option Text :=
  match machine.locate path with
  | .ok (.present location _) => some (locationText location)
  | _ => none

def absolute (machine : Machine) (path : Text) : Text :=
  if Path.isAbsolute path then path else Path.append machine.cwdText path

def read (machine : Machine) (path : Text) : Except PathFault Bytes :=
  match machine.locate path with
  | .ok (.present _ (.file bytes)) => .ok bytes
  | .ok (.present _ _) => .error .isDirectory
  | .ok (.absent _ _) => .error .notFound
  | .error fault => .error fault

/-- Does the path end in a step that only a directory can answer? -/
def wantsFolder (path : Text) : Bool :=
  path.getLast? = some '/' ||
    (match (Text.split '/' path).getLast? with
    | some last => last = ['.'] || last = ['.', '.']
    | none => false)

/-- The location of the file that a write to a path goes to, and the bytes that it has now. -/
def slot (machine : Machine) (path : Text) : Except PathFault (Location × Option Bytes) :=
  let target := if wantsFolder path then Path.ofComponents (Path.components path) else path
  match machine.locate target with
  | .error fault => .error fault
  | .ok place =>
    if wantsFolder path then .error .isDirectory
    else
      match place with
      | .present location (.file bytes) => .ok (location, some bytes)
      | .present _ _ => .error .isDirectory
      | .absent folder name => .ok (folder ++ [name], none)

def write (machine : Machine) (path : Text) (bytes : Bytes) : Except PathFault Machine :=
  (machine.slot path).map fun (location, _) ↦
    { machine with tree := machine.tree.putAt (.file bytes) location }

def append (machine : Machine) (path : Text) (bytes : Bytes) : Except PathFault Machine :=
  (machine.slot path).map fun (location, old) ↦
    { machine with tree := machine.tree.putAt (.file (old.getD [] ++ bytes)) location }

def readText (machine : Machine) (path : Text) : Except TextFault Text :=
  match machine.read path with
  | .error fault => .error (.path fault)
  | .ok bytes => (Utf8.decode bytes).mapError .encoding

/-- The machine with a directory at the path and at every step before it, as far as nothing else
is in the way. -/
def makeFolders (machine : Machine) (path : Text) : Machine :=
  let step (made : Machine × Text) (piece : Text) : Machine × Text :=
    let next := Path.append made.2 piece
    match made.1.locate next with
    | .ok (.absent folder name) =>
      ({ made.1 with tree := made.1.tree.putAt (.folder .empty) (folder ++ [name]) }, next)
    | _ => (made.1, next)
  ((steps path).foldl step (machine, if Path.isAbsolute path then ['/'] else [])).1

def makeLink (machine : Machine) (path target : Text) : Machine :=
  match machine.locateWith false path with
  | .ok (.absent folder name) =>
    { machine with tree := machine.tree.putAt (.link target) (folder ++ [name]) }
  | _ => machine

def enter (machine : Machine) (path : Text) : Machine :=
  match machine.locate path with
  | .ok (.present location (.folder _)) => { machine with cwd := location }
  | _ => machine

end Machine

def skippedFolders : List Text := [".git".toList, ".hg".toList, ".svn".toList]

def Folder.filesBelow (base : Text) : Folder → List Text
  | .empty => []
  | .file name _ rest => Path.append base name :: rest.filesBelow base
  | .link _ _ rest => rest.filesBelow base
  | .folder name inside rest =>
    (if skippedFolders.contains name then [] else inside.filesBelow (Path.append base name)) ++
      rest.filesBelow base

/-- The paths of all files at or below a path. A link as the starting point is followed to a
directory only. -/
def Machine.walk (machine : Machine) (path : Text) : List Text :=
  match machine.node? path with
  | some (.folder inside) => inside.filesBelow path
  | some (.file _) =>
    match machine.ownNode? path with
    | some (.file _) => [path]
    | _ => []
  | _ => []

end HeaderStamp
