import HeaderStamp.Proofs.Json.RoundTrip
import HeaderStamp.Report.Decode
import HeaderStamp.Report.Render

namespace HeaderStamp

open Json (Value)

namespace FileReport

variable (report : FileReport)

theorem ofJson_toJson : ofJson report.toJson = .ok report := by
  obtain ⟨path, relative, component, action, error⟩ := report
  rw [toJson, ofJson, List.mergeSort_of_pairwise]
  · cases error <;> cases component <;> cases action <;> rfl
  · cases error with
    | none => simp; decide
    | some e => simp; decide

theorem fits_toJson : report.toJson.Fits := by
  obtain ⟨path, relative, component, action, error⟩ := report
  cases component <;> cases error <;> simp [toJson, orNull, Value.Fits, Value.FieldsFit]

theorem reread_toJson : report.toJson.reread = report.toJson := by
  obtain ⟨path, relative, component, action, error⟩ := report
  cases component <;> cases error <;> rfl

end FileReport

structure Summary.Fits (summary : Summary) : Prop where
  total_lt : summary.total < Nat.pow 2 64
  added_lt : summary.added < Nat.pow 2 64
  missing_lt : summary.missing < Nat.pow 2 64
  already_lt : summary.already < Nat.pow 2 64
  failed_lt : summary.failed < Nat.pow 2 64
  le_timestamp : -(Int.pow 2 63) ≤ summary.timestamp
  timestamp_lt : summary.timestamp < Int.pow 2 63

theorem Json.Value.fits_natCast {n : Nat} (h : n < Nat.pow 2 64) : (Value.integer n).Fits := by
  rw [Value.Fits]
  constructor
  · exact Int.le_trans (by decide) (Int.natCast_nonneg n)
  · exact Int.ofNat_lt.mpr h

theorem Summary.Fits.toJson {summary : Summary} (h : summary.Fits) : summary.toJson.Fits := by
  have htime : (Value.integer summary.timestamp).Fits :=
    ⟨h.le_timestamp, Int.lt_trans h.timestamp_lt (by decide)⟩
  exact ⟨Value.fits_natCast h.already_lt, Value.fits_natCast h.failed_lt,
    Value.fits_natCast h.added_lt, Value.fits_natCast h.missing_lt, trivial, htime,
    Value.fits_natCast h.total_lt, trivial⟩

namespace Report

variable (reports : List FileReport) {summary : Summary}

theorem itemsFit_map_toJson : Value.ItemsFit (reports.map FileReport.toJson) := by
  induction reports with
  | nil => trivial
  | cons report rest ih => exact ⟨report.fits_toJson, ih⟩

theorem rereadItems_map_toJson :
    Value.rereadItems (reports.map FileReport.toJson) = reports.map FileReport.toJson := by
  induction reports with
  | nil => rfl
  | cons report rest ih =>
    rw [List.map_cons, Value.rereadItems, report.reread_toJson, ih]

theorem mapM_ofJson_toJson :
    (reports.map FileReport.toJson).mapM (fun item ↦ (FileReport.ofJson item).toOption) =
      some reports := by
  induction reports with
  | nil => rfl
  | cons report rest ih =>
    rw [List.map_cons, List.mapM_cons, report.ofJson_toJson, ih]
    rfl

def document (reports : List FileReport) (summary : Summary) : Value :=
  .object
    [ ("files".toList, .array (reports.map FileReport.toJson)),
      ("summary".toList, summary.toJson) ]

theorem json_eq (summary : Summary) :
    json reports summary = Json.print 0 (document reports summary) := rfl

theorem fits_document (h : summary.Fits) : (document reports summary).Fits :=
  ⟨itemsFit_map_toJson reports, h.toJson, trivial⟩

theorem reports?_document (summary : Summary) :
    reports? (document reports summary).reread = some reports := by
  change (Value.rereadItems (reports.map FileReport.toJson)).mapM
    (fun item ↦ (FileReport.ofJson item).toOption) = some reports
  rw [rereadItems_map_toJson, mapM_ofJson_toJson]

/-- A report in JSON gives back its records, its counts and its time, whatever its texts hold and
however long the run took. -/
theorem parse?_json (h : summary.Fits) :
    parse? (json reports summary) = some {
      reports
      total := summary.total
      added := summary.added
      missing := summary.missing
      already := summary.already
      failed := summary.failed
      timestamp := summary.timestamp } := by
  have hread := Json.parse?_print (fits_document reports h)
  rw [parse?, json_eq, hread, Option.bind_eq_bind, Option.bind_some, reports?_document]
  rfl

theorem parse?_json_of_escaped_fields :
    let reports : List FileReport :=
      [ ⟨"/w/\x00\x1f\x7f.go".toList, "\"\\/\x08\x0c\n\r\t".toList, some [], .added, none⟩,
        ⟨"/w/größe.go".toList, "größe.go".toList, none, .missing, some []⟩,
        ⟨[], [], some "𝄞\u2028,]".toList, .alreadyAnnotated, none⟩,
        ⟨"null".toList, "0".toList, none, .failed, some "\"error\": []".toList⟩ ]
    let summary : Summary :=
      ⟨18446744073709551615, 0, 1, 10, 2, .ofRatio false 1 10, -9223372036854775808⟩
    summary.Fits ∧ parse? (json reports summary) =
      some ⟨reports, 18446744073709551615, 0, 1, 10, 2, -9223372036854775808⟩ := by
  intro reports summary
  have hfits : summary.Fits :=
    ⟨by decide, by decide, by decide, by decide, by decide, by decide, by decide⟩
  exact ⟨hfits, parse?_json reports hfits⟩

end Report

end HeaderStamp
