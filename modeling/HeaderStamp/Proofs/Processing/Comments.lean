import HeaderStamp.Proofs.Header.Comments
import HeaderStamp.Proofs.Insertion.Splice
import HeaderStamp.Proofs.Processing.Batch
import HeaderStamp.Proofs.Processing.Settling

namespace HeaderStamp.Processor

variable {config : Config} {year root : Text} {task : Task} {processor : Processor}

def insets (processor : Processor) (relative : Text) : List Text :=
  processor.settings.insets relative (baseName relative) (processor.rules.resolve relative)

theorem marked_header_iff (h : ofConfig config year root task = .ok processor) (relative : Text) :
    Text.Marked Config.commentMark (Text.join ['\n'] (processor.header relative)) ↔
      ∀ t ∈ processor.insets relative, Text.Continues Config.commentMark t := by
  obtain ⟨-, hsettings, -⟩ := ofConfig_eq_ok h
  have hmark : processor.settings.commentMark = Config.commentMark := by
    rw [hsettings]
    rfl
  rw [Text.marked_join (header_ne_nil processor relative), ← hmark]
  exact HeaderSettings.marked_header_iff (by rw [hmark]; decide) (by rw [hmark]; decide)
    (by rw [hmark]; decide) (by rw [hmark]; decide) _ _ _

theorem mem_header_starts {line relative : Text} (h : line ∈ processor.header relative) :
    processor.settings.commentMark <+: line := by
  simp only [header, HeaderSettings.header, List.mem_cons, List.not_mem_nil, or_false] at h
  rcases h with rfl | rfl | rfl | rfl | rfl | rfl | rfl
  case inr.inr.inl => exact List.prefix_rfl
  all_goals exact List.prefix_append _ _

theorem marked_header_of_notMem (h : ofConfig config year root task = .ok processor)
    {relative : Text} (hyear : '\n' ∉ year) (hpath : '\n' ∉ relative)
    (hconfig : ∀ t ∈ config.texts, '\n' ∉ t) :
    Text.Marked Config.commentMark (Text.join ['\n'] (processor.header relative)) := by
  obtain ⟨-, hsettings, -⟩ := ofConfig_eq_ok h
  rw [Text.marked_join (header_ne_nil processor relative)]
  intro line hline
  have hfeed : '\n' ∉ line := by
    intro hm
    rcases exists_mem_of_mem_header h (by decide) hline hm with hc | hc | ⟨t, ht, hc⟩
    · exact hpath hc
    · exact hyear hc
    · exact hconfig t ht hc
  have hstart := mem_header_starts hline
  rw [hsettings] at hstart
  exact (Text.marked_of_notMem hfeed).mpr hstart

/-- What an annotation adds is the lines of the header and a blank line below them. All of these are
comments if and only if every text that is set into the header goes on as a comment after each of
its own line ends, which it does if it has none. -/
theorem annotate_commented_iff (h : ofConfig config year root task = .ok processor)
    (path content : Text)
    (hchanged : (processor.annotate path content).insertion.changed = true) :
    let added := Text.join ['\n'] (processor.header path)
    (∃ above below, Text.normalized content = above ++ below ∧
      (above = [] ∨ above.getLast? = some '\n') ∧
      (processor.annotate path content).insertion.content =
        above ++ (added ++ ['\n']) ++ (if below = [] then [] else ['\n']) ++ below) ∧
      (Text.Marked Config.commentMark added ↔
        ∀ t ∈ processor.insets path, Text.Continues Config.commentMark t) ∧
      ('\n' ∉ year → '\n' ∉ path → (∀ t ∈ config.texts, '\n' ∉ t) →
        Text.Marked Config.commentMark added) := by
  intro added
  obtain ⟨-, -, hinserter, -⟩ := ofConfig_eq_ok h
  have hne := header_ne_nil processor path
  have hlf : processor.inserter.ending = .lf := by
    rw [hinserter]
    rfl
  have hbare := (Inserter.changed_insert hne).symm.trans hchanged
  rw [Bool.not_eq_true'] at hbare
  have hcut := Text.normalized_eq_append content (processor.inserter.index (Text.lines content))
  refine ⟨⟨_, _, hcut, Text.unlines_feed_end _, ?_⟩, marked_header_iff h path,
    marked_header_of_notMem h⟩
  rw [annotate, Inserter.insert_of_not_hasHeader hne hbare, Text.join_append_terminator _ hne]
  simp only [Inserter.spliced_lf hlf, Text.unlines_feed_eq_nil_iff]

def notesConfig (notes : Text) : Config :=
  { directiveConfig "//go:build".toList with fallback := ⟨"tool".toList, [], some notes⟩ }

theorem annotate_commented_iff_of_two_notes :
    ∃ processor, ofConfig (notesConfig "one\n// two".toList) "2025".toList "/".toList .write =
      .ok processor ∧
      (processor.annotate "a.go".toList "package a\n".toList).insertion.changed = true ∧
      let added := Text.join ['\n'] (processor.header "a.go".toList)
      (∃ above below, Text.normalized "package a\n".toList = above ++ below ∧
        (above = [] ∨ above.getLast? = some '\n') ∧
        (processor.annotate "a.go".toList "package a\n".toList).insertion.content =
          above ++ (added ++ ['\n']) ++ (if below = [] then [] else ['\n']) ++ below) ∧
        (Text.Marked Config.commentMark added ↔
          ∀ t ∈ processor.insets "a.go".toList, Text.Continues Config.commentMark t) ∧
        ('\n' ∉ "2025".toList → '\n' ∉ "a.go".toList →
          (∀ t ∈ (notesConfig "one\n// two".toList).texts, '\n' ∉ t) →
          Text.Marked Config.commentMark added) := by
  obtain ⟨processor, h, hchanged⟩ := exists_ok_of_any
    (ofConfig (notesConfig "one\n// two".toList) "2025".toList "/".toList .write)
    (fun processor ↦ (processor.annotate "a.go".toList "package a\n".toList).insertion.changed)
    (by decide +kernel)
  exact ⟨processor, h, hchanged, annotate_commented_iff h _ _ hchanged⟩

/-- Notes of two lines put their second line into the file as it is. -/
theorem annotate_uncommented_below_notes :
    (notesConfig "one\nreturn 1".toList).validate = .ok () ∧
      ∃ processor, ofConfig (notesConfig "one\nreturn 1".toList) "2025".toList "/".toList .write =
        .ok processor ∧
        (processor.annotate "a.go".toList "package a\n".toList).insertion.changed = true ∧
        "return 1".toList ∈ Text.split '\n'
          (processor.annotate "a.go".toList "package a\n".toList).insertion.content ∧
        "return 1".toList ∉ Text.split '\n' "package a\n".toList ∧
        ¬ Config.commentMark <+: "return 1".toList := by
  obtain ⟨processor, h, hadded⟩ := exists_ok_of_any
    (ofConfig (notesConfig "one\nreturn 1".toList) "2025".toList "/".toList .write)
    (fun processor ↦
      let insertion := (processor.annotate "a.go".toList "package a\n".toList).insertion
      insertion.changed && decide ("return 1".toList ∈ Text.split '\n' insertion.content))
    (by decide +kernel)
  obtain ⟨hchanged, hmem⟩ := Bool.and_eq_true_iff.mp hadded
  exact ⟨by decide +kernel, processor, h, hchanged, of_decide_eq_true hmem, by decide, by decide⟩

end HeaderStamp.Processor
