import HeaderStamp.CommandLine.Parse
import HeaderStamp.CommandLine.Run
import Std.Time.Zoned

namespace HeaderStamp

def Folder.allFiles (base : Location) : Folder → List (Location × Bytes)
  | .empty => []
  | .file name bytes rest => (base ++ [name], bytes) :: rest.allFiles base
  | .link _ _ rest => rest.allFiles base
  | .folder name inside rest => inside.allFiles (base ++ [name]) ++ rest.allFiles base

def Machine.changedFiles (before after : Machine) : List (Text × Bytes) :=
  (after.tree.allFiles []).filterMap fun (location, bytes) ↦
    if before.tree.at? location = some (.file bytes) then none
    else some (Machine.locationText location, bytes)

def string (t : Text) : String := String.ofList t

def attempt {α : Type} (action : IO α) : IO (Option α) := do
  try
    return some (← action)
  catch _ => return none

def canonicalPath (path : Text) : IO (Option Text) := do
  let real ← attempt (IO.FS.realPath (string path))
  return real.map fun p ↦ p.toString.toList

def repositoryNames : List String := ["HEAD", "objects", "refs", "config"]

/-- A directory with all that is below it. The bytes of files are left out, and of repositories only
the entries by which they are recognised are taken. -/
partial def snapshot (only : String → Bool) (path : String) : IO Folder := do
  let entries := (← attempt (System.mkFilePath [path]).readDir).getD #[]
  let mut folder := Folder.empty
  for entry in entries do
    if only entry.fileName then
      let name := entry.fileName.toList
      let below := path ++ "/" ++ entry.fileName
      let kind : Option IO.FS.FileType := (← attempt entry.path.symlinkMetadata).map fun m ↦ m.type
      match kind with
      | some .file => folder := folder.put name (.file [])
      | some .symlink =>
        let target ← canonicalPath below.toList
        folder := folder.put name (.link (target.getD []))
      | some .dir =>
        let inside ←
          if entry.fileName == ".git" then snapshot (repositoryNames.contains ·) below
          else if only "" then snapshot only below
          else pure Folder.empty
        folder := folder.put name (.folder inside)
      | _ => pure ()
  return folder

def withFolder (machine : Machine) (only : String → Bool) (path : Text) : IO Machine := do
  let inside ← snapshot only (string path)
  let location := (Text.split '/' path).filter (· ≠ [])
  let ready := machine.makeFolders path
  if location = [] then return { ready with tree := inside }
  return { ready with tree := ready.tree.putAt (.folder inside) location }

def withFile (machine : Machine) (path : Text) : IO Machine := do
  let absolute := machine.absolute path
  match ← canonicalPath absolute, ← attempt (IO.FS.readBinFile (string absolute)) with
  | some real, some bytes =>
    let ready := machine.makeFolders (Path.ofComponents (Path.components real).dropLast)
    return (ready.write real bytes.toList).toOption.getD ready
  | _, _ => return machine

def plainPart (path : Text) : Text :=
  Path.ofComponents <| (Path.components path).takeWhile fun step ↦
    !step.text.any fun c ↦ c = '*' || c = '?' || c = '['

def gather (cwd : Text) (args : Arguments) (configFile : Option Text) : IO Machine := do
  let mut machine := (Machine.makeFolders ⟨.empty, []⟩ cwd).enter cwd
  for folder in (Repository.ancestors machine.cwd).reverse do
    let wanted := ".git" :: string ConfigSources.fileName :: repositoryNames
    machine ← withFolder machine (wanted.contains ·) folder
  let named := (['.'] :: args.patterns ++ args.root.toList).map fun p ↦
    plainPart (machine.absolute p)
  for path in named do
    if let some real := ← canonicalPath path then
      if ← (System.mkFilePath [string real]).isDir then
        machine ← withFolder machine (fun _ ↦ true) real
      else machine ← withFile machine real
  let besides := args.config.toList ++ configFile.toList ++ args.saveDiff.toList ++
    args.reportJson.toList ++ args.reportCsv.toList
  for path in besides do
    machine ← withFile machine path
  for folder in Repository.ancestors machine.cwd ++ (args.root.map machine.absolute).toList do
    for name in [ConfigSources.fileName, ".git".toList, ".git/config".toList, "config".toList] do
      machine ← withFile machine (Path.append folder name)
  return machine

def withSources (host : Host) (args : Arguments) : IO Machine := do
  match (Run.plan host args).result with
  | .error _ => return host.machine
  | .ok plan =>
    match (Run.prepare args host.clock host.machine plan).result with
    | .error _ => return host.machine
    | .ok job =>
      let mut machine := host.machine
      for path in job.files do
        machine ← withFile machine path
      return machine

def twoDigits (n : Nat) : String := if n < 10 then "0" ++ toString n else toString n

def readClock : IO Clock := do
  let date ← Std.Time.PlainDateTime.now
  let stamp ← Std.Time.Timestamp.now
  let now := toString date.date.year.toInt ++ "-" ++ twoDigits date.date.month.toNat ++ "-" ++
    twoDigits date.date.day.toNat ++ " " ++ twoDigits date.time.hour.toNat ++ ":" ++
    twoDigits date.time.minute.toNat ++ ":" ++ twoDigits date.time.second.toNat
  return ⟨date.date.year.toInt.toNat, now.toList, stamp.toSecondsSinceUnixEpoch.val,
    Binary64.ofMillis 0, 0⟩

def print (outputs : List Output) : IO Unit := do
  let out ← IO.getStdout
  let err ← IO.getStderr
  for output in outputs do
    let stream := match output.stream with
      | .out => out
      | .err => err
    stream.putStr (string output.text)
    stream.flush

def runHere (args : Arguments) : IO UInt32 := do
  let cwd := (← IO.currentDir).toString.toList
  let configFile := (← IO.getEnv "EDHEADER_CONFIG").map String.toList
  let logFilter := (← IO.getEnv "RUST_LOG").map String.toList
  let machine ← gather cwd args configFile
  let began ← IO.monoMsNow
  let clock ← readClock
  let outColors ← (← IO.getStdout).isTty
  let errColors ← (← IO.getStderr).isTty
  let host : Host := ⟨machine, configFile, logFilter, outColors, errColors, clock⟩
  let ready ← withSources host args
  let took := (← IO.monoMsNow) - began
  let host := { host with machine := ready, clock := { clock with seconds := Binary64.ofMillis took } }
  let outcome := run host args
  for (path, bytes) in Machine.changedFiles host.machine outcome.machine do
    IO.FS.writeBinFile (string path) ⟨bytes.toArray⟩
  print outcome.outputs
  return UInt32.ofNat outcome.exitCode

end HeaderStamp

open HeaderStamp in
def main (arguments : List String) : IO UInt32 := do
  match CommandLine.parse (arguments.map String.toList) with
  | .ok args => runHere args
  | .error refusal =>
    let stream := if refusal.exitCode = 0 then Stream.out else .err
    print ((CommandLine.refusalLines refusal).map (Console.line stream))
    return UInt32.ofNat refusal.exitCode
