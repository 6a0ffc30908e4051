import HeaderStamp.Proofs.Decimal.Digits
import HeaderStamp.Proofs.Text.Pieces
import HeaderStamp.Report.Render

namespace HeaderStamp

theorem Text.split_unlines {c : Char} {lines : List Text} (h : ∀ line ∈ lines, c ∉ line) :
    split c (unlines [c] lines) = lines ++ [[]] := by
  induction lines with
  | nil => rfl
  | cons line lines ih =>
    obtain ⟨hline, hlines⟩ := List.forall_mem_cons.mp h
    rw [unlines, List.flatMap_cons, List.append_assoc, List.singleton_append,
      split_append_cons hline]
    exact congrArg (line :: ·) (ih hlines)

namespace Report

/-- A text as the table shows it: its commas spelled, its lines in one. -/
def shown (t : Text) : Text :=
  t.flatMap fun c ↦ if c = ',' then "%2C".toList else if c = '\n' then [' '] else [c]

theorem csvField_eq_shown (t : Text) : csvField t = shown t := by
  rw [csvField, Text.replaceChar, Text.replaceChar, List.flatMap_assoc, shown]
  refine List.flatMap_congr fun c _ ↦ ?_
  by_cases hcomma : c = ','
  · rw [if_pos hcomma, if_pos hcomma]
    rfl
  · rw [if_neg hcomma, if_neg hcomma, List.flatMap_singleton]

theorem ne_of_mem_shown {t : Text} {c : Char} (h : c ∈ shown t) : c ≠ ',' ∧ c ≠ '\n' := by
  obtain ⟨d, -, hc⟩ := List.mem_flatMap.mp h
  split at hc
  · have hcomma : ',' ∉ "%2C".toList := by decide
    have hfeed : '\n' ∉ "%2C".toList := by decide
    exact ⟨ne_of_mem_of_not_mem hc hcomma, ne_of_mem_of_not_mem hc hfeed⟩
  · next hcomma =>
    split at hc
    · rw [List.mem_singleton.mp hc]
      decide
    · next hfeed =>
      rw [List.mem_singleton.mp hc]
      exact ⟨hcomma, hfeed⟩

def fields (report : FileReport) : List Text :=
  [shown report.relative, shown (report.component.getD []), report.action.label,
    shown (report.error.getD [])]

theorem csvRow_eq (report : FileReport) : csvRow report = Text.join [','] (fields report) := by
  rw [csvRow, csvField_eq_shown, csvField_eq_shown, csvField_eq_shown, fields]

theorem ne_of_mem_label {action : Action} {c : Char} (h : c ∈ action.label) :
    c ≠ ',' ∧ c ≠ '\n' := by
  have hcomma : ',' ∉ action.label := by cases action <;> decide
  have hfeed : '\n' ∉ action.label := by cases action <;> decide
  exact ⟨ne_of_mem_of_not_mem h hcomma, ne_of_mem_of_not_mem h hfeed⟩

theorem ne_of_mem_fields {report : FileReport} {field : Text} (hfield : field ∈ fields report)
    {c : Char} (h : c ∈ field) : c ≠ ',' ∧ c ≠ '\n' := by
  simp only [fields, List.mem_cons, List.not_mem_nil, or_false] at hfield
  rcases hfield with rfl | rfl | rfl | rfl
  · exact ne_of_mem_shown h
  · exact ne_of_mem_shown h
  · exact ne_of_mem_label h
  · exact ne_of_mem_shown h

theorem split_csvRow (report : FileReport) : Text.split ',' (csvRow report) = fields report := by
  rw [csvRow_eq]
  apply Text.split_join_of_notMem
  · exact List.cons_ne_nil _ _
  intro field hfield hcomma
  exact (ne_of_mem_fields hfield hcomma).1 rfl

theorem feed_notMem_csvRow (report : FileReport) : '\n' ∉ csvRow report := by
  intro hfeed
  rw [csvRow_eq] at hfeed
  rcases Text.mem_of_mem_join hfeed with hcomma | ⟨field, hfield, hmem⟩
  · cases List.mem_singleton.mp hcomma
  · exact (ne_of_mem_fields hfield hmem).2 rfl

theorem csvRow_ne_nil (report : FileReport) : csvRow report ≠ [] := by
  intro hnil
  have hfields := split_csvRow report
  rw [hnil] at hfields
  simp [Text.split, fields] at hfields

theorem feed_notMem_csvSummary (summary : Summary) {now : Text} (hnow : '\n' ∉ now) :
    ∀ line ∈ csvSummary summary now, '\n' ∉ line := by
  have hcounted (label : Text) (hlabel : '\n' ∉ label) (n : Nat) :
      '\n' ∉ label ++ Text.ofNat n := by
    rw [List.mem_append, not_or]
    exact ⟨hlabel, Text.notMem_ofNat (by decide) n⟩
  simp only [csvSummary, List.forall_mem_cons, List.not_mem_nil, IsEmpty.forall_iff,
    implies_true, and_true]
  refine ⟨by decide, hcounted _ (by decide) _, hcounted _ (by decide) _, hcounted _ (by decide) _,
    hcounted _ (by decide) _, hcounted _ (by decide) _, ?_, ?_⟩
  · rw [List.mem_append, not_or]
    exact ⟨by decide, summary.seconds.feed_notMem_twoPlaces⟩
  · rw [List.mem_append, not_or]
    exact ⟨by decide, hnow⟩

theorem split_csv (reports : List FileReport) (summary : Summary) {now : Text}
    (hnow : '\n' ∉ now) :
    Text.split '\n' (csv reports summary now) =
      csvTitle :: (reports.map csvRow ++ [] :: (csvSummary summary now ++ [[]])) := by
  have hlines : ∀ line ∈ csvTitle :: reports.map csvRow ++ [] :: csvSummary summary now,
      '\n' ∉ line := by
    intro line hline
    rcases List.mem_append.mp hline with hline | hline
    · rcases List.mem_cons.mp hline with rfl | hline
      · decide
      · obtain ⟨report, -, rfl⟩ := List.mem_map.mp hline
        exact feed_notMem_csvRow report
    · rcases List.mem_cons.mp hline with rfl | hline
      · exact List.not_mem_nil
      · exact feed_notMem_csvSummary summary hnow line hline
  rw [csv, Text.split_unlines hlines, List.append_assoc]
  rfl

/-- The table has one line for each report, in their order, and each of them has the four fields of
its report, whatever these hold. No row is empty, so the table ends at the first empty line. -/
theorem csv_framed (reports : List FileReport) (summary : Summary) {now : Text}
    (hnow : '\n' ∉ now) :
    let lines := Text.split '\n' (csv reports summary now)
    lines = csvTitle :: (reports.map csvRow ++ [] :: (csvSummary summary now ++ [[]])) ∧
      (∀ report ∈ reports, Text.split ',' (csvRow report) =
        [shown report.relative, shown (report.component.getD []), report.action.label,
          shown (report.error.getD [])]) ∧
      lines.idxOf [] = reports.length + 1 ∧
      lines[reports.length + 2]? = some "# Summary".toList := by
  intro lines
  have hlines : lines = (csvTitle :: reports.map csvRow) ++ [] :: (csvSummary summary now ++ [[]]) :=
    split_csv reports summary hnow
  have hlength : (csvTitle :: reports.map csvRow).length = reports.length + 1 := by simp
  refine ⟨hlines, fun report _ ↦ split_csvRow report, ?_, ?_⟩
  · have hrows : [] ∉ csvTitle :: reports.map csvRow := by
      intro hmem
      rcases List.mem_cons.mp hmem with htitle | hrow
      · exact absurd htitle (by decide)
      · obtain ⟨report, -, hnil⟩ := List.mem_map.mp hrow
        exact csvRow_ne_nil report hnil
    rw [hlines, List.idxOf_append_of_notMem hrows, List.idxOf_cons_self, hlength]
  · rw [hlines, List.getElem?_append_right (by omega), hlength,
      show reports.length + 2 - (reports.length + 1) = 1 by omega]
    rfl

theorem csv_framed_of_forged_rows :
    let report : FileReport := ⟨"/w/a,b\n.go".toList, "a,b\n.go".toList, some [], .failed,
      some "x\n\n# Summary\ny,,".toList⟩
    let summary := Summary.ofReports [report, report] (.ofRatio false 3 2) 0
    let now := "2025-01-02 03:04:05".toList
    let lines := Text.split '\n' (csv [report, report] summary now)
    '\n' ∉ now ∧ report ∈ [report, report] ∧
      Text.split ',' (csvRow report) = ["a%2Cb .go".toList, [], "Failed".toList,
        "x  # Summary y%2C%2C".toList] ∧
      lines.idxOf [] = 3 ∧ lines[4]? = some "# Summary".toList := by
  intro report summary now lines
  have hnow : '\n' ∉ now := by decide
  obtain ⟨-, hrows, hempty, hsummary⟩ := csv_framed [report, report] summary hnow
  refine ⟨hnow, List.mem_cons_self, ?_, hempty, hsummary⟩
  rw [hrows report List.mem_cons_self]
  decide +kernel

end Report

end HeaderStamp
