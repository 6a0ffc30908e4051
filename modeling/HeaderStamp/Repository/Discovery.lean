import HeaderStamp.FileTree.Machine
import HeaderStamp.Repository.Settings

namespace HeaderStamp.Repository

inductive Finding
  | nothing
  | bare (directory : Text)
  | tree (root : Text)
  | broken
deriving DecidableEq, Repr

def isRepository (machine : Machine) (directory : Text) : Bool :=
  machine.isFile (Path.append directory "HEAD".toList) &&
    machine.isFolder (Path.append directory "objects".toList) &&
    machine.isFolder (Path.append directory "refs".toList)

inductive Sign
  | no
  | found (directory : Text)
  | over
  | invalid

def fileSign (machine : Machine) (folder file : Text) : Sign :=
  match machine.readText file with
  | .error _ => .invalid
  | .ok content =>
    match Text.dropStart? "gitdir:".toList content with
    | none => .invalid
    | some rest =>
      let target := Text.trim rest
      if target = [] then .invalid
      else
        match machine.canonical? (Path.append folder target) with
        | none => .over
        | some directory => if isRepository machine directory then .found directory else .over

/-- The sign of one directory: its `.git` entry goes before the directory itself. -/
def signAt (machine : Machine) (folder : Text) : Sign :=
  let entry := Path.append folder ".git".toList
  if machine.isFolder entry && isRepository machine entry then .found entry
  else
    match (if machine.isFile entry then fileSign machine folder entry else .no) with
    | .no => if isRepository machine folder then .found folder else .no
    | sign => sign

def settingsAt? (machine : Machine) (directory : Text) : Option Settings :=
  match machine.read (Path.append directory "config".toList) with
  | .error _ => some []
  | .ok bytes => settings? (Utf8.decodeLossy bytes)

def knownExtensions : List Text :=
  ["noop", "objectformat", "preciousobjects", "partialclone", "worktreeconfig"].map fun name ↦
    "extensions.".toList ++ name.toList

def knownExtension (name : Text) : Bool :=
  !"extensions.".toList.isPrefixOf name || knownExtensions.contains name

def knownVersion (settings : Settings) : Bool :=
  match settings.last? "core.repositoryformatversion" with
  | none => true
  | some none => false
  | some (some t) =>
    number? t = some 0 || (number? t = some 1 && settings.all fun (name, _) ↦ knownExtension name)

def parentOf (directory : Text) : Text := Path.ofComponents (Path.components directory).dropLast

def openAt (machine : Machine) (directory : Text) : Finding :=
  let directory := (machine.canonical? directory).getD directory
  match settingsAt? machine directory with
  | none => .broken
  | some settings =>
    if !knownVersion settings then .broken
    else
      match (settings.last? "core.bare").map truth? with
      | some none => .broken
      | some (some true) => .bare (directory ++ ['/'])
      | _ =>
        match settings.last? "core.worktree" with
        | some (some worktree) =>
          match machine.canonical? (Path.append directory worktree) with
          | some root => .tree root
          | none => .broken
        | _ => .tree (parentOf directory)

def search (machine : Machine) : List Text → Finding
  | [] => .nothing
  | folder :: outer =>
    match signAt machine folder with
    | .no => search machine outer
    | .over => .nothing
    | .invalid => .broken
    | .found directory => openAt machine directory

def ancestors (location : Location) : List Text :=
  (List.range (location.length + 1)).reverse.map fun n ↦ Machine.locationText (location.take n)

def discover (machine : Machine) : Finding := search machine (ancestors machine.cwd)

end HeaderStamp.Repository
