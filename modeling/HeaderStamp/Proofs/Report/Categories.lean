import HeaderStamp.Report.Summary

namespace HeaderStamp

def Summary.of (summary : Summary) : Action → Nat
  | .added => summary.added
  | .missing => summary.missing
  | .alreadyAnnotated => summary.already
  | .failed => summary.failed

def Categories.of (categories : Categories) : Action → List FileReport
  | .added => categories.added
  | .missing => categories.missing
  | .alreadyAnnotated => categories.annotated
  | .failed => categories.failed

theorem Summary.of_ofReports (reports : List FileReport) (seconds : Binary64) (timestamp : Int)
    (action : Action) :
    (ofReports reports seconds timestamp).of action =
      reports.countP fun report ↦ report.action = action := by
  rw [List.countP_eq_length_filter]
  cases action <;> rfl

namespace Categories

theorem of_add (categories : Categories) (report : FileReport) (action : Action) :
    (categories.add report).of action =
      categories.of action ++ if report.action = action then [report] else [] := by
  rw [add]
  cases report.action <;> cases action <;> simp [of]

theorem of_foldl_add (categories : Categories) (reports : List FileReport) (action : Action) :
    (reports.foldl add categories).of action =
      categories.of action ++ reports.filter fun report ↦ report.action = action := by
  induction reports generalizing categories with
  | nil => simp
  | cons report rest ih =>
    rw [List.foldl_cons, ih, of_add, List.append_assoc, List.filter_cons]
    congr 1
    split <;> simp [*]

theorem of_ofReports (reports : List FileReport) (action : Action) :
    (ofReports reports).of action = reports.filter fun report ↦ report.action = action := by
  rw [ofReports, of_foldl_add]
  cases action <;> rfl

end Categories

end HeaderStamp
