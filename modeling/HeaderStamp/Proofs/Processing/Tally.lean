import HeaderStamp.Proofs.FileTree.Writing
import HeaderStamp.Proofs.Processing.CheckRun
import HeaderStamp.Proofs.Processing.Independence

namespace HeaderStamp

def Task.lacking : Task → Action
  | .write => .added
  | .check _ => .missing

def Task.outputs : Task → List Text
  | .write => []
  | .check diff => diff.file.toList

namespace Processor

variable {processor : Processor} {machine : Machine} {path : Text} {paths : List Text}

theorem report_processFile (processor : Processor) (machine : Machine) (path : Text) :
    (processor.processFile machine path (machine.relative path processor.root)).report =
      processor.reportOf processor.task.lacking machine path := by
  cases htask : processor.task with
  | write => exact (processFile_write htask machine path).1
  | check diff => exact (processFile_check htask machine path).1

theorem path_processAll (processor : Processor) (machine : Machine) (paths : List Text) :
    (processor.processAll machine paths).reports.map FileReport.path = paths := by
  induction paths generalizing machine with
  | nil => rfl
  | cons path rest ih => rw [processAll, List.map_cons, ih, report_processFile, path_reportOf]

end Processor

end HeaderStamp
