import HeaderStamp.Processing.Processor
import HeaderStamp.Proofs.Header.Characters
import HeaderStamp.Proofs.Insertion.SelfRecognition
import HeaderStamp.Proofs.Rules.Origin

namespace HeaderStamp

def RuleConfig.texts (rule : RuleConfig) : List Text :=
  [rule.component, rule.usage] ++ rule.notes.toList

namespace Config

def texts (config : Config) : List Text :=
  [config.header.holder, config.header.license] ++ config.header.year.toList ++
    config.header.extensions ++
    [config.markers.spdx, config.markers.directive, config.markers.altDirective,
      config.markers.benchSuffix] ++ config.markers.testSuffixes ++
    [config.markers.benchUsage, config.markers.testUsage] ++ config.fallback.texts ++
    config.rules.flatMap fun (directory, rule) ↦ directory :: rule.texts

def OneLine (config : Config) : Prop := ∀ t ∈ config.texts, t.OneLine

instance (t : Text) : Decidable t.OneLine := inferInstanceAs (Decidable (_ ∧ _))

instance (config : Config) : Decidable config.OneLine :=
  inferInstanceAs (Decidable (∀ t ∈ config.texts, t.OneLine))

variable {config : Config}

theorem mem_texts_of_mem_settings_texts {year t : Text} (h : t ∈ (config.settings year).texts) :
    t = year ∨ t = commentMark ∨ t ∈ config.texts := by
  simp only [settings, HeaderSettings.texts, List.mem_cons, List.not_mem_nil, or_false] at h
  rcases h with rfl | rfl | rfl | rfl | rfl | rfl | rfl <;> simp [texts]

theorem mem_texts_of_mem_metadata_texts {table : RuleTable} (h : config.table = .ok table)
    {path t : Text} (ht : t ∈ (table.resolve path).texts) : t = [] ∨ t ∈ config.texts := by
  obtain ⟨rule, hrule, hc, hu, hn⟩ := exists_rule_of_resolve h path
  have hrule : ∀ u ∈ rule.texts, u ∈ config.texts := by
    intro u hu
    rcases List.mem_cons.mp hrule with rfl | hr
    · simp [texts, hu]
    · obtain ⟨⟨directory, written⟩, hw, rfl⟩ := List.mem_map.mp hr
      simp only [texts, List.mem_append, List.mem_flatMap]
      exact .inr ⟨_, hw, List.mem_cons_of_mem _ hu⟩
  have hfallback : ∀ u ∈ config.fallback.texts, u ∈ config.texts := fun u hu ↦ by
    simp [texts, hu]
  simp only [Metadata.texts, hc, hu, hn, List.mem_cons, List.not_mem_nil, or_false] at ht
  rcases ht with rfl | rfl | rfl
  · exact .inr (hrule _ (by simp [RuleConfig.texts]))
  · exact .inr (hrule _ (by simp [RuleConfig.texts]))
  · cases hnotes : rule.notes with
    | some notes => exact .inr (hrule _ (by simp [RuleConfig.texts, hnotes]))
    | none =>
      cases hown : config.fallback.notes with
      | some notes =>
        exact .inr (hfallback _ (by simp [RuleConfig.texts, fallbackNotes, hown]))
      | none => exact .inl (by simp [fallbackNotes, hown])

end Config

namespace Processor

variable {config : Config} {year root : Text} {task : Task} {processor : Processor}

theorem ofConfig_eq_ok (h : ofConfig config year root task = .ok processor) :
    config.table = .ok processor.rules ∧ processor.settings = config.settings year ∧
      processor.inserter = config.inserter ∧ processor.detector = config.detector ∧
      processor.root = root ∧ processor.task = task := by
  rw [ofConfig] at h
  cases ht : config.table with
  | error e =>
    rw [ht] at h
    cases h
  | ok table =>
    rw [ht] at h
    cases h
    exact ⟨rfl, rfl, rfl, rfl, rfl, rfl⟩

theorem mem_of_mem_baseName {relative : Text} {c : Char} (h : c ∈ baseName relative) :
    c ∈ relative ∨ c = '.' := by
  rw [baseName] at h
  cases hstem : Path.stem? relative with
  | none => simp [hstem] at h
  | some stem => exact Path.mem_of_mem_stem? hstem (by simpa [hstem] using h)

theorem exists_mem_of_mem_header (h : ofConfig config year root task = .ok processor) {c : Char}
    (hc : c.toNat < 32) {relative line : Text} (hline : line ∈ processor.header relative)
    (hm : c ∈ line) : c ∈ relative ∨ c ∈ year ∨ ∃ t ∈ config.texts, c ∈ t := by
  obtain ⟨htable, hsettings, -⟩ := ofConfig_eq_ok h
  obtain ⟨t, ht, hct⟩ := HeaderSettings.exists_mem_of_mem_header hc hline hm
  rcases List.mem_cons.mp ht with rfl | ht
  · exact .inl hct
  rcases List.mem_cons.mp ht with rfl | ht
  · refine .inl ((mem_of_mem_baseName hct).resolve_right ?_)
    rintro rfl
    exact absurd hc (by decide)
  rcases List.mem_append.mp ht with ht | ht
  · rw [hsettings] at ht
    rcases Config.mem_texts_of_mem_settings_texts ht with rfl | rfl | ht
    · exact .inr (.inl hct)
    · exact absurd hct (Text.notMem_of_control hc (by decide))
    · exact .inr (.inr ⟨t, ht, hct⟩)
  · rcases Config.mem_texts_of_mem_metadata_texts htable ht with rfl | ht
    · simp at hct
    · exact .inr (.inr ⟨t, ht, hct⟩)

theorem oneLine_header (h : ofConfig config year root task = .ok processor)
    (hconfig : config.OneLine) (hyear : year.OneLine) {relative : Text} (hpath : relative.OneLine) :
    ∀ line ∈ processor.header relative, line.OneLine := by
  intro line hline
  constructor
  · intro hm
    rcases exists_mem_of_mem_header h (by decide) hline hm with hc | hc | ⟨t, ht, hc⟩
    · exact hpath.1 hc
    · exact hyear.1 hc
    · exact (hconfig t ht).1 hc
  · intro hm
    rcases exists_mem_of_mem_header h (by decide) hline hm with hc | hc | ⟨t, ht, hc⟩
    · exact hpath.2 hc
    · exact hyear.2 hc
    · exact (hconfig t ht).2 hc

theorem lasting (h : ofConfig config year root task = .ok processor) (hyear : '\n' ∉ year)
    (hholder : '\n' ∉ config.header.holder) (hspdx : '\n' ∉ config.markers.spdx) :
    processor.detector.Lasting processor.settings.copyrightLine processor.settings.markerStem := by
  obtain ⟨-, hsettings, -, hdetector, -⟩ := ofConfig_eq_ok h
  rw [hsettings, hdetector]
  exact HeaderSettings.lasting (show '\n' ∉ Config.commentMark by decide) hyear hholder hspdx rfl
    (show 2 ≤ Detector.defaultWindow by decide)

/-- Under a configuration of single lines, whatever `validate` says of it, a path is annotated once
and for all exactly if the tool recognizes the header that it writes for that path. -/
theorem annotate_settled_iff (h : ofConfig config year root task = .ok processor)
    (hconfig : config.OneLine) (hyear : year.OneLine) {path : Text} (hpath : path.OneLine) :
    (∀ later content, later.OneLine →
      (processor.annotate later (processor.annotate path content).insertion.content).insertion =
        ⟨(processor.annotate path content).insertion.content, false⟩) ↔
      processor.inserter.Recognizes processor.detector (processor.header path) := by
  have hlasting := lasting h hyear.1 (hconfig _ (by simp [Config.texts])).1
    (hconfig _ (by simp [Config.texts])).1
  have hlines := oneLine_header h hconfig hyear hpath
  obtain ⟨-, -, hinserter, -⟩ := ofConfig_eq_ok h
  have hdir : processor.inserter.directive.OneLine := by
    rw [hinserter]
    exact hconfig _ (by simp [Config.texts, Config.inserter])
  have halt : processor.inserter.altDirective.OneLine := by
    rw [hinserter]
    exact hconfig _ (by simp [Config.texts, Config.inserter])
  obtain ⟨tail, hheader⟩ := processor.settings.exists_header_eq path (baseName path)
    (processor.rules.resolve path)
  have hheader : processor.header path = _ := hheader
  simp only [annotate]
  rw [hheader] at hlines ⊢
  constructor
  · intro hsettled
    by_contra hrec
    obtain ⟨content, hbare, hlost⟩ := hlasting.exists_lost_of_not_recognizes hdir hlines hrec
    have hagain := hsettled path content hpath
    rw [hheader, Inserter.insert_of_not_hasHeader (List.cons_ne_nil _ _) hbare] at hagain
    dsimp only at hagain
    rw [Inserter.insert_of_not_hasHeader (List.cons_ne_nil _ _) hlost] at hagain
    exact Bool.noConfusion (congrArg Insertion.changed hagain)
  · intro hrec later content _
    apply Inserter.insert_of_hasHeader
    cases hfound : processor.inserter.hasHeader processor.detector (Text.lines content) with
    | true => rw [Inserter.insert_of_hasHeader hfound, hfound]
    | false =>
      rw [Inserter.insert_of_not_hasHeader (List.cons_ne_nil _ _) hfound]
      dsimp only
      exact hlasting.hasHeader_spliced_of_recognizes hdir.2 halt.2 hlines hrec hfound

theorem exists_ok_of_any {ε α : Type} (result : Except ε α) (test : α → Bool)
    (h : result.toOption.any test = true) : ∃ a, result = .ok a ∧ test a = true := by
  cases result with
  | error e => simp [Except.toOption] at h
  | ok a => exact ⟨a, rfl, by simpa [Except.toOption] using h⟩

def directiveConfig (directive : Text) : Config where
  header := ⟨"me".toList, "MIT".toList, none, []⟩
  markers := ⟨"SPDX".toList, directive, [], [], [], [], []⟩
  fallback := ⟨"tool".toList, [], none⟩
  rules := []

theorem annotate_settled_iff_of_build_directive :
    ∃ processor, ofConfig (directiveConfig "//go:build".toList) "2025".toList "/".toList .write =
      .ok processor ∧
      processor.inserter.Recognizes processor.detector (processor.header "a.go".toList) ∧
      ∀ later content, later.OneLine →
        (processor.annotate later
          (processor.annotate "a.go".toList content).insertion.content).insertion =
            ⟨(processor.annotate "a.go".toList content).insertion.content, false⟩ := by
  obtain ⟨processor, h, hfinds⟩ := exists_ok_of_any
    (ofConfig (directiveConfig "//go:build".toList) "2025".toList "/".toList .write)
    (fun processor ↦ processor.detector.finds ((processor.header "a.go".toList).drop
      (processor.inserter.index (processor.header "a.go".toList)))) (by decide +kernel)
  have hpath : Text.OneLine "a.go".toList := by decide
  have hsettled := annotate_settled_iff h (by decide +kernel) (by decide) hpath
  exact ⟨processor, h, .inr hfinds, hsettled.mpr (.inr hfinds)⟩

/-- Where all comments are directives, a header below five of them is skipped with them, and the
next run puts another one below it. -/
theorem annotate_again_below_comments :
    (directiveConfig "//".toList).validate = .ok () ∧ (directiveConfig "//".toList).OneLine ∧
      ∃ processor, ofConfig (directiveConfig "//".toList) "2025".toList "/".toList .write =
        .ok processor ∧
        (processor.annotate "a.go".toList (processor.annotate "a.go".toList
          "// a\n// b\n// c\n// d\n// e\npackage a\n".toList).insertion.content).insertion.changed =
            true :=
  ⟨by decide +kernel, by decide +kernel, exists_ok_of_any _ _ (by decide +kernel)⟩

end Processor

end HeaderStamp
