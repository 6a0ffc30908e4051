import HeaderStamp.Json.Value

namespace HeaderStamp

inductive Action
  | added
  | missing
  | alreadyAnnotated
  | failed
deriving DecidableEq, Repr

namespace Action

def label : Action → Text
  | .added => "Added".toList
  | .missing => "Missing".toList
  | .alreadyAnnotated => "Already annotated".toList
  | .failed => "Failed".toList

def name : Action → Text
  | .added => "added".toList
  | .missing => "missing".toList
  | .alreadyAnnotated => "already_annotated".toList
  | .failed => "failed".toList

def all : List Action := [.added, .missing, .alreadyAnnotated, .failed]

def ofName? (t : Text) : Option Action := all.find? fun action ↦ action.name = t

end Action

structure FileReport where
  path : Text
  relative : Text
  component : Option Text
  action : Action
  error : Option Text
deriving DecidableEq, Repr

namespace FileReport

def ofFailure (path relative error : Text) : FileReport :=
  ⟨path, relative, none, .failed, some error⟩

def orNull : Option Text → Json.Value
  | some t => .string t
  | none => .null

/-- The record as JSON; the error stands in it only if there is one. -/
def toJson (report : FileReport) : Json.Value :=
  .object <|
    [ ("action".toList, .string report.action.name),
      ("component".toList, orNull report.component) ] ++
    (report.error.map fun e ↦ ("error".toList, Json.Value.string e)).toList ++
    [ ("path".toList, .string report.path),
      ("relative_path".toList, .string report.relative) ]

end FileReport

structure Summary where
  total : Nat
  added : Nat
  missing : Nat
  already : Nat
  failed : Nat
  seconds : Binary64
  timestamp : Int
deriving DecidableEq, Repr

structure Categories where
  added : List FileReport
  missing : List FileReport
  annotated : List FileReport
  failed : List FileReport
deriving DecidableEq, Repr

def count (action : Action) (reports : List FileReport) : Nat :=
  (reports.filter fun report ↦ report.action = action).length

def Summary.ofReports (reports : List FileReport) (seconds : Binary64) (timestamp : Int) :
    Summary where
  total := reports.length
  added := count .added reports
  missing := count .missing reports
  already := count .alreadyAnnotated reports
  failed := count .failed reports
  seconds := seconds
  timestamp := timestamp

namespace Categories

def empty : Categories := ⟨[], [], [], []⟩

def add (categories : Categories) (report : FileReport) : Categories :=
  match report.action with
  | .added => { categories with added := categories.added ++ [report] }
  | .missing => { categories with missing := categories.missing ++ [report] }
  | .alreadyAnnotated => { categories with annotated := categories.annotated ++ [report] }
  | .failed => { categories with failed := categories.failed ++ [report] }

def ofReports (reports : List FileReport) : Categories := reports.foldl add empty

end Categories

end HeaderStamp
