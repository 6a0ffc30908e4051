import HeaderStamp.Proofs.Diff.Log
import HeaderStamp.Proofs.Processing.SecondRun

namespace HeaderStamp

namespace Processor

variable {processor : Processor} {diff : DiffSettings} {before machine : Machine} {path : Text}

theorem logged_keepDiff (h : diff.Logged before machine) (path relative old new : Text) :
    diff.Logged before (keepDiff diff machine path relative old new).1 := by
  rw [keepDiff]
  split
  · split
    · exact h.save ‹_›
    · exact h
  · exact h

theorem processFile_check (htask : processor.task = .check diff) (machine : Machine)
    (path : Text) :
    let step := processor.processFile machine path (machine.relative path processor.root)
    step.report = processor.reportOf .missing machine path ∧
      ∀ before, diff.Logged before machine → diff.Logged before step.machine := by
  intro step
  cases hupdate : processor.update? machine path with
  | none =>
    obtain ⟨hmachine, hreport⟩ := processFile_of_update?_eq_none hupdate .missing
    refine ⟨hreport, fun before hlogged ↦ ?_⟩
    rw [show step.machine = machine from hmachine]
    exact hlogged
  | some content =>
    obtain ⟨old, hold, hstamped⟩ := exists_stamped_of_update? hupdate
    rw [reportOf_of_update?_eq_some hupdate]
    simp only [step, processFile, hold, hstamped, htask]
    exact ⟨rfl, fun before hlogged ↦ logged_keepDiff hlogged _ _ _ _⟩

end Processor

end HeaderStamp
