import HeaderStamp.Proofs.CommandLine.Course
import HeaderStamp.Proofs.Processing.Tally
import HeaderStamp.Proofs.Report.Categories

namespace HeaderStamp

def Arguments.outputs (args : Arguments) : List Text :=
  args.saveDiff.toList ++ (args.reportJson.toList ++ args.reportCsv.toList)

namespace Run

variable {host : Host} {args : Arguments} {ready : Start} {console : Console}

end Run

end HeaderStamp
