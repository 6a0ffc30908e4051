import HeaderStamp.Console.Event
import HeaderStamp.Report.Summary

namespace HeaderStamp.Console

def plural (count : Nat) : Text := (if count = 1 then "file" else "files").toList

def listLimit : Nat := 20

def unlessQuiet (console : Console) (t : Text) : List Output :=
  if console.isQuiet then [] else [line .out t]

def startLine (console : Console) (files : Nat) (check : Bool) : List Output :=
  console.unlessQuiet
    ((if check then "Checking " else "Annotating ").toList ++ Text.ofNat files ++ ' ' ::
      plural files ++ "...".toList)

def blankLine (console : Console) : List Output := console.unlessQuiet []

def fileList (console : Console) (title : Text) (files : List FileReport) : List Output :=
  let limit := if console.isVerbose then files.length else listLimit
  let shown := (files.take limit).map fun file ↦ line .out (' ' :: ' ' :: file.relative)
  let rest :=
    if limit < files.length then
      let more := "... and ".toList ++ Text.ofNat (files.length - limit)
      [line .out (' ' :: ' ' :: console.styled .out .dimmed more ++
        " more (use -v to see all)".toList)]
    else []
  line .out title :: shown ++ rest

/-- Files that lack a header. A quiet run prints nothing but their paths. -/
def missingFiles (console : Console) (files : List FileReport) : List Output :=
  if files = [] then []
  else if console.isQuiet then files.map fun file ↦ line .out file.relative
  else
    console.fileList
      (console.styled .out .red ['✗'] ++ ' ' :: Text.ofNat files.length ++ ' ' ::
        plural files.length ++ " missing headers:".toList)
      files

def addedFiles (console : Console) (files : List FileReport) : List Output :=
  if files = [] ∨ console.isQuiet then []
  else
    console.fileList
      (console.styled .out .green ['✓'] ++ " Added header to ".toList ++ Text.ofNat files.length ++
        ' ' :: plural files.length ++ [':'])
      files

def reason (file : FileReport) : Text := file.error.getD "unknown error".toList

/-- Files that could not be processed; no run is silent about them. -/
def failedFiles (console : Console) (files : List FileReport) : List Output :=
  if files = [] then []
  else if console.isQuiet then
    files.map fun file ↦ line .err (file.relative ++ ": ".toList ++ reason file)
  else
    line .err
        (console.styled .err .red ['!'] ++ " Could not process ".toList ++
          Text.ofNat files.length ++ ' ' :: plural files.length ++ [':']) ::
      files.map fun file ↦
        line .err
          (' ' :: ' ' :: file.relative ++ " (".toList ++
            console.styled .err .dimmed (reason file) ++ [')'])

def allFine (console : Console) : List Output :=
  console.unlessQuiet
    (console.styled .out .green ['✓'] ++ " All files already have headers.".toList)

def updatedLine (count : Nat) : Text := "Updated ".toList ++ Text.ofNat count ++ " files".toList

def summary (console : Console) (summary : Summary) (check : Bool) : List Output :=
  let pending := if check then summary.missing else summary.added
  let number (alarm : Bool) (n : Nat) : Text :=
    console.styled .out (if alarm then .red else .cyan) (Text.ofNat n)
  console.unlessQuiet
      ("Summary: ".toList ++ number (check && 0 < pending) pending ++
        (if check then " missing" else " added").toList ++ ", ".toList ++
        number false summary.already ++ " already annotated, ".toList ++
        number (0 < summary.failed) summary.failed ++ " failed".toList ++
        (if console.isVerbose then " (".toList ++ summary.seconds.twoPlaces ++ "s)".toList else [])) ++
    console.unlessQuiet (updatedLine summary.added)

def hint (console : Console) (message : Text) : List Output :=
  console.unlessQuiet (console.styled .out .yellow message)

def results (console : Console) (categories : Categories) (check : Bool) : List Output :=
  let changes := if check then categories.missing else categories.added
  console.blankLine ++
    (if check then console.missingFiles changes else console.addedFiles changes) ++
    console.failedFiles categories.failed ++
    (if changes = [] ∧ categories.failed = [] then console.allFine else [])

def closing (console : Console) (summary : Summary) (check : Bool) : List Output :=
  console.blankLine ++ console.summary summary check ++
    if check ∧ 0 < summary.missing then
      console.blankLine ++ console.hint "Run without --check to add the missing headers.".toList
    else []

end HeaderStamp.Console
