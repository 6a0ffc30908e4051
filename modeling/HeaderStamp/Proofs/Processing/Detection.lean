import HeaderStamp.Proofs.Processing.Settling

namespace HeaderStamp

namespace Inserter

variable {inserter : Inserter} {detector : Detector} {header : List Text} {content : Text}

theorem hasHeader_eq_false_iff {lines : List Text} :
    inserter.hasHeader detector lines = false ↔
      (∀ line ∈ lines.take detector.window, ¬ detector.marker <:+: line) ∧
        ∀ line ∈ (lines.drop (inserter.index lines)).take detector.window,
          ¬ detector.marker <:+: line := by
  rw [hasHeader, Bool.or_eq_false_iff, ← Bool.not_eq_true, ← Bool.not_eq_true,
    Detector.finds_iff, Detector.finds_iff]
  push Not
  rfl

theorem changed_insert_iff (hne : header ≠ []) :
    (inserter.insert detector header content).changed = true ↔
      (∀ line ∈ (Text.lines content).take detector.window, ¬ detector.marker <:+: line) ∧
        ∀ line ∈ ((Text.lines content).drop (inserter.index (Text.lines content))).take
          detector.window, ¬ detector.marker <:+: line := by
  rw [changed_insert hne, Bool.not_eq_true', hasHeader_eq_false_iff]

theorem changed_insert_congr {other : List Text} (hne : header ≠ []) (hother : other ≠ []) :
    (inserter.insert detector other content).changed =
      (inserter.insert detector header content).changed := by
  rw [changed_insert hne, changed_insert hother]

end Inserter

namespace Processor

/-- Two processors that look for the same marker in the same places agree on every content, whatever
else they know of the file that holds it. -/
theorem changed_annotate_congr {first second : Processor}
    (hinserter : second.inserter = first.inserter) (hdetector : second.detector = first.detector)
    (path other content : Text) :
    (second.annotate other content).insertion.changed =
      (first.annotate path content).insertion.changed := by
  simp only [annotate, hinserter, hdetector]
  exact Inserter.changed_insert_congr (List.cons_ne_nil _ _) (List.cons_ne_nil _ _)

/-- A content is changed exactly if the marker stands neither in its first lines nor in those at the
insertion index, and a change shows. Nothing else decides: configurations that share the marker and
the directives annotate the same contents, at whatever paths, by whatever rules and in whatever
years. -/
theorem changed_iff_unmarked (inserter : Inserter) (detector : Detector)
    (settings : HeaderSettings) (path name : Text) (metadata : Metadata) (content : Text) :
    let insertion := inserter.insert detector (settings.header path name metadata) content
    let lines := Text.lines content
    (insertion.changed = true ↔
      (∀ line ∈ lines.take detector.window, ¬ detector.marker <:+: line) ∧
        ∀ line ∈ (lines.drop (inserter.index lines)).take detector.window,
          ¬ detector.marker <:+: line) ∧
    (insertion.changed = true → insertion.content ≠ content) ∧
    (insertion.changed = false → insertion.content = content) ∧
    (∀ (others : HeaderSettings) (elsewhere otherName : Text) (foreign : Metadata),
      (inserter.insert detector (others.header elsewhere otherName foreign) content).changed =
        insertion.changed) ∧
    ∀ (config other : Config) (year otherYear root otherRoot : Text) (task otherTask : Task)
      (first second : Processor), ofConfig config year root task = .ok first →
      ofConfig other otherYear otherRoot otherTask = .ok second →
      other.markers.spdx = config.markers.spdx →
      other.markers.directive = config.markers.directive →
      other.markers.altDirective = config.markers.altDirective →
      ∀ here there, (second.annotate there content).insertion.changed =
        (first.annotate here content).insertion.changed := by
  intro insertion lines
  refine ⟨Inserter.changed_insert_iff (List.cons_ne_nil _ _), Inserter.content_ne_iff.mpr,
    Inserter.content_eq_iff.mpr, ?_, ?_⟩
  · intro others elsewhere otherName foreign
    exact Inserter.changed_insert_congr (List.cons_ne_nil _ _) (List.cons_ne_nil _ _)
  · intro config other year otherYear root otherRoot task otherTask first second hfirst hsecond
      hspdx hdirective halt here there
    obtain ⟨-, -, hinserter, hdetector, -⟩ := ofConfig_eq_ok hfirst
    obtain ⟨-, -, hinserts, hdetects, -⟩ := ofConfig_eq_ok hsecond
    apply changed_annotate_congr
    · rw [hinserts, hinserter, Config.inserter, Config.inserter, hdirective, halt]
    · rw [hdetects, hdetector, Config.detector, Config.detector, hspdx]

theorem changed_iff_unmarked_of_two_projects :
    let config := { Config.builtin with rules := [("texel".toList, ⟨"tool".toList, [], none⟩)] }
    let other :=
      { Config.builtin with
        header := ⟨"me".toList, "MIT".toList, none, []⟩
        rules := [] }
    let content := "//go:build linux\n\n\n\n\npackage main\n// SPDX\n".toList
    ∃ first second, ofConfig config "2025".toList "/".toList .write = .ok first ∧
      ofConfig other "1999".toList "/work".toList .write = .ok second ∧
      (first.annotate "texel/pane.go".toList content).insertion.changed = true ∧
      ∀ path, (second.annotate path content).insertion.changed = true := by
  intro config other content
  obtain ⟨first, hfirst, hchanged⟩ := exists_ok_of_any
    (ofConfig config "2025".toList "/".toList .write)
    (fun first ↦ (first.annotate "texel/pane.go".toList content).insertion.changed)
    (by decide +kernel)
  obtain ⟨second, hsecond, -⟩ := exists_ok_of_any
    (ofConfig other "1999".toList "/work".toList .write) (fun _ ↦ true) (by decide +kernel)
  obtain ⟨-, -, -, -, hsame⟩ := changed_iff_unmarked Config.builtin.inserter
    Config.builtin.detector (Config.builtin.settings "2025".toList) [] [] ⟨none, [], [], []⟩ content
  refine ⟨first, second, hfirst, hsecond, hchanged, fun path ↦ ?_⟩
  rw [hsame config other _ _ _ _ _ _ first second hfirst hsecond rfl rfl rfl
    "texel/pane.go".toList path, hchanged]

end Processor

end HeaderStamp
