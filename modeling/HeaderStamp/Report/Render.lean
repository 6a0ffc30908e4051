import HeaderStamp.FileTree.Machine
import HeaderStamp.Report.Summary
import HeaderStamp.Text.Basic

namespace HeaderStamp

inductive ReportFormat
  | json
  | csv
deriving DecidableEq, Repr

def ReportFormat.name : ReportFormat → Text
  | .json => "JSON".toList
  | .csv => "CSV".toList

namespace Summary

def toJson (summary : Summary) : Json.Value :=
  .object
    [ ("already_annotated".toList, .integer summary.already),
      ("failed".toList, .integer summary.failed),
      ("headers_added".toList, .integer summary.added),
      ("headers_missing".toList, .integer summary.missing),
      ("processing_time_seconds".toList, .float summary.seconds),
      ("timestamp".toList, .integer summary.timestamp),
      ("total_files".toList, .integer summary.total) ]

end Summary

namespace Report

def json (reports : List FileReport) (summary : Summary) : Text :=
  Json.print 0 <| .object
    [ ("files".toList, .array (reports.map FileReport.toJson)),
      ("summary".toList, summary.toJson) ]

def csvField (t : Text) : Text :=
  Text.replaceChar '\n' [' '] (Text.replaceChar ',' "%2C".toList t)

def csvRow (report : FileReport) : Text :=
  Text.join [',']
    [ csvField report.relative, csvField (report.component.getD []), report.action.label,
      csvField (report.error.getD []) ]

def csvTitle : Text := "file_path,component,action,error".toList

def csvSummary (summary : Summary) (now : Text) : List Text :=
  [ "# Summary".toList,
    "Total files processed,".toList ++ Text.ofNat summary.total,
    "Headers added,".toList ++ Text.ofNat summary.added,
    "Headers missing,".toList ++ Text.ofNat summary.missing,
    "Already annotated,".toList ++ Text.ofNat summary.already,
    "Failed,".toList ++ Text.ofNat summary.failed,
    "Processing time (seconds),".toList ++ summary.seconds.twoPlaces,
    "Generated on,".toList ++ now ]

def csv (reports : List FileReport) (summary : Summary) (now : Text) : Text :=
  Text.unlines ['\n'] (csvTitle :: reports.map csvRow ++ [] :: csvSummary summary now)

def render (format : ReportFormat) (reports : List FileReport) (summary : Summary) (now : Text) :
    Text :=
  match format with
  | .json => json reports summary
  | .csv => csv reports summary now

def failure (format : ReportFormat) (path : Text) (fault : PathFault) : Text :=
  "Failed to write ".toList ++ format.name ++ " report to ".toList ++ path ++ ": ".toList ++
    fault.message

def generate (machine : Machine) (format : ReportFormat) (path : Text)
    (reports : List FileReport) (summary : Summary) (now : Text) : Except Text Machine :=
  (machine.write path (Utf8.encode (render format reports summary now))).mapError
    (failure format path)

end Report

end HeaderStamp
