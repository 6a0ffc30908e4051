import HeaderStamp.Proofs.Processing.Settling
import HeaderStamp.Proofs.Rules.Resolution

namespace HeaderStamp

namespace RuleTable

open DirectoryRule

/-- A rule that does not claim the path, or that stands above the one to which the path is
resolved. -/
def Foreign (table : RuleTable) (path : Text) (rule : DirectoryRule) : Prop :=
  ¬ rule.Owns (Text.dropLeadingPairs '.' '/' path) ∨
    ∃ directory ∈ (table.resolve path).directory?,
      (normalize rule.directory).length < directory.length

instance (table : RuleTable) (path : Text) (rule : DirectoryRule) :
    Decidable (table.Foreign path rule) :=
  inferInstanceAs (Decidable (_ ∨ _))

variable {rules others : List DirectoryRule} {fallback : DirectoryRule} {table other : RuleTable}
  {path : Text}

theorem foreign_iff_of_deepest (h : ofRules rules fallback = .ok table) {owner : DirectoryRule}
    (hdeepest : Deepest rules (Text.dropLeadingPairs '.' '/' path) owner) (rule : DirectoryRule) :
    table.Foreign path rule ↔ ¬ rule.Owns (Text.dropLeadingPairs '.' '/' path) ∨
      (normalize rule.directory).length < (normalize owner.directory).length := by
  obtain ⟨hall, -⟩ := exists_ofRules_iff.mp ⟨table, h⟩
  have hempty : owner.normal.directory ≠ [] := hall owner hdeepest.mem
  rw [Foreign, resolve_of_deepest h hdeepest, metadata, if_neg hempty]
  simp [normal]

theorem foreign_iff_of_forall_not_owns (h : ofRules rules fallback = .ok table)
    (hnone : ∀ rule ∈ rules, ¬ rule.Owns (Text.dropLeadingPairs '.' '/' path))
    (rule : DirectoryRule) :
    table.Foreign path rule ↔ ¬ rule.Owns (Text.dropLeadingPairs '.' '/' path) := by
  rw [Foreign, resolve_of_forall_not_owns h hnone]
  simp

theorem resolve_eq_of_foreign (h : ofRules rules fallback = .ok table)
    (hother : ofRules others fallback = .ok other)
    (hgone : ∀ rule ∈ rules, rule ∉ others → table.Foreign path rule)
    (hcome : ∀ rule ∈ others, rule ∉ rules → table.Foreign path rule) :
    other.resolve path = table.resolve path := by
  obtain ⟨-, hnodup⟩ := exists_ofRules_iff.mp ⟨table, h⟩
  by_cases howned : ∃ rule ∈ rules, rule.Owns (Text.dropLeadingPairs '.' '/' path)
  · obtain ⟨owner, hdeepest⟩ := exists_deepest hnodup howned
    simp only [foreign_iff_of_deepest h hdeepest] at hgone hcome
    have hmem : owner ∈ others := by
      by_contra hmissing
      rcases hgone owner hdeepest.mem hmissing with hnot | hlt
      · exact hnot hdeepest.owns
      · exact lt_irrefl _ hlt
    have hsame : Deepest others (Text.dropLeadingPairs '.' '/' path) owner := by
      refine ⟨hmem, hdeepest.owns, fun rule hrule howns hne ↦ ?_⟩
      by_cases hold : rule ∈ rules
      · exact hdeepest.longest rule hold howns hne
      · exact (hcome rule hrule hold).resolve_left (not_not.mpr howns)
    rw [resolve_of_deepest h hdeepest, resolve_of_deepest hother hsame]
  · push Not at howned
    simp only [foreign_iff_of_forall_not_owns h howned] at hcome
    rw [resolve_of_forall_not_owns h howned, resolve_of_forall_not_owns hother fun rule hrule ↦ ?_]
    by_cases hold : rule ∈ rules
    · exact howned rule hold
    · exact hcome rule hrule hold

end RuleTable

namespace Config

def ruleOf (config : Config) (entry : Text × RuleConfig) : DirectoryRule :=
  ⟨entry.1, entry.2.component, entry.2.usage, entry.2.notes.getD config.fallbackNotes⟩

/-- The rule of the deepest entry that a path belongs to, or else the fallback rule. -/
inductive Owner (config : Config) (path : Text) : RuleConfig → Prop
  | entry {entry : Text × RuleConfig} : entry ∈ config.rules →
      DirectoryRule.Deepest (config.rules.map config.ruleOf) (Text.dropLeadingPairs '.' '/' path)
        (config.ruleOf entry) →
      Owner config path entry.2
  | fallback :
      (∀ entry ∈ config.rules,
        ¬ (config.ruleOf entry).Owns (Text.dropLeadingPairs '.' '/' path)) →
      Owner config path config.fallback

variable {config : Config} {rules : List (Text × RuleConfig)} {table other : RuleTable}
  {path : Text}

theorem eq_of_ruleOf_eq (h : config.table = .ok table) {first second : Text × RuleConfig}
    (hfirst : first ∈ config.rules) (hsecond : second ∈ config.rules)
    (heq : config.ruleOf first = config.ruleOf second) : first = second := by
  have hnodup : ((config.rules.map config.ruleOf).map fun rule ↦
      RuleTable.normalize rule.directory).Nodup := (RuleTable.exists_ofRules_iff.mp ⟨table, h⟩).2
  rw [List.map_map] at hnodup
  exact List.inj_on_of_nodup_map hnodup hfirst hsecond
    (congrArg (fun rule : DirectoryRule ↦ RuleTable.normalize rule.directory) heq)

theorem Owner.unique (h : config.table = .ok table) {first second : RuleConfig}
    (hfirst : config.Owner path first) (hsecond : config.Owner path second) : first = second := by
  cases hfirst with
  | entry hmem hdeepest =>
    cases hsecond with
    | entry hother hsame => rw [eq_of_ruleOf_eq h hmem hother (hdeepest.unique hsame)]
    | fallback hnone => exact absurd hdeepest.owns (hnone _ hmem)
  | fallback hnone =>
    cases hsecond with
    | entry hother hsame => exact absurd hsame.owns (hnone _ hother)
    | fallback => rfl

theorem exists_owner (h : config.table = .ok table) (path : Text) :
    ∃ rule, config.Owner path rule ∧
      (table.resolve path).notes = (rule.notes <|> config.fallback.notes).getD [] := by
  obtain ⟨-, hnodup⟩ := RuleTable.exists_ofRules_iff.mp ⟨table, h⟩
  by_cases howned : ∃ rule ∈ config.rules.map config.ruleOf,
      rule.Owns (Text.dropLeadingPairs '.' '/' path)
  · obtain ⟨rule, hdeepest⟩ := DirectoryRule.exists_deepest hnodup howned
    obtain ⟨entry, hentry, rfl⟩ := List.mem_map.mp hdeepest.mem
    refine ⟨entry.2, .entry hentry hdeepest, ?_⟩
    rw [RuleTable.resolve_of_deepest h hdeepest]
    show entry.2.notes.getD config.fallbackNotes = _
    cases entry.2.notes <;> rfl
  · push Not at howned
    refine ⟨config.fallback, .fallback fun entry hentry ↦
      howned _ (List.mem_map_of_mem hentry), ?_⟩
    rw [RuleTable.resolve_of_forall_not_owns h howned]
    show config.fallback.notes.getD [] = _
    cases config.fallback.notes <;> rfl

theorem resolve_eq_of_foreign (h : config.table = .ok table)
    (hother : { config with rules }.table = .ok other)
    (hgone : ∀ entry ∈ config.rules, entry ∉ rules → table.Foreign path (config.ruleOf entry))
    (hcome : ∀ entry ∈ rules, entry ∉ config.rules → table.Foreign path (config.ruleOf entry)) :
    other.resolve path = table.resolve path := by
  refine RuleTable.resolve_eq_of_foreign h hother ?_ ?_
  · intro rule hrule hmissing
    obtain ⟨entry, hentry, rfl⟩ := List.mem_map.mp hrule
    exact hgone entry hentry fun hmem ↦ hmissing (List.mem_map_of_mem hmem)
  · intro rule hrule hmissing
    obtain ⟨entry, hentry, rfl⟩ := List.mem_map.mp hrule
    exact hcome entry hentry fun hmem ↦ hmissing (List.mem_map_of_mem hmem)

end Config

namespace Processor

variable {config : Config} {table : RuleTable}

theorem exists_ofConfig (h : config.table = .ok table) (year root : Text) (task : Task) :
    ∃ processor, ofConfig config year root task = .ok processor ∧ processor.rules = table :=
  ⟨_, by rw [ofConfig, h]; rfl, rfl⟩

theorem notesLine_eq (processor : Processor) (path : Text) :
    (processor.header path)[6]? =
      some (processor.settings.commentMark ++ ' ' ::
        ("Notes: ".toList ++ (processor.rules.resolve path).notes)) := rfl

/-- Processors that differ in their rules only annotate alike where they resolve alike. -/
theorem annotate_congr {first second : Processor} (hsettings : second.settings = first.settings)
    (hinserter : second.inserter = first.inserter) (hdetector : second.detector = first.detector)
    {path : Text} (hresolve : second.rules.resolve path = first.rules.resolve path)
    (content : Text) : second.annotate path content = first.annotate path content := by
  rw [annotate, annotate, header, header, hsettings, hinserter, hdetector, hresolve]

/-- What a file is annotated with depends on no rule but the one that owns it, and its notes are
those of this rule or else of the fallback rule. -/
theorem annotate_of_owner (h : config.table = .ok table) (path year root : Text) (task : Task) :
    ∃ processor, ofConfig config year root task = .ok processor ∧
      (∃ rule, config.Owner path rule ∧ (∀ other, config.Owner path other → other = rule) ∧
        (processor.header path)[6]? = some (Config.commentMark ++ ' ' ::
          ("Notes: ".toList ++ (rule.notes <|> config.fallback.notes).getD []))) ∧
      ∀ rules other, { config with rules }.table = .ok other →
        (∀ entry ∈ config.rules, entry ∉ rules → table.Foreign path (config.ruleOf entry)) →
        (∀ entry ∈ rules, entry ∉ config.rules → table.Foreign path (config.ruleOf entry)) →
        ∃ rival, ofConfig { config with rules } year root task = .ok rival ∧
          ∀ content, rival.annotate path content = processor.annotate path content := by
  obtain ⟨processor, hprocessor, hrules⟩ := exists_ofConfig h year root task
  obtain ⟨-, hsettings, hinserter, hdetector, -⟩ := ofConfig_eq_ok hprocessor
  refine ⟨processor, hprocessor, ?_, ?_⟩
  · obtain ⟨rule, howner, hnotes⟩ := Config.exists_owner h path
    refine ⟨rule, howner, fun other hother ↦ hother.unique h howner, ?_⟩
    rw [notesLine_eq, hrules, hnotes, hsettings]
    rfl
  · intro rules other hother hgone hcome
    obtain ⟨rival, hrival, hothers⟩ := exists_ofConfig hother year root task
    obtain ⟨-, hsame, hinserts, hdetects, -⟩ := ofConfig_eq_ok hrival
    have hresolve := Config.resolve_eq_of_foreign h hother hgone hcome
    rw [← hrules, ← hothers] at hresolve
    exact ⟨rival, hrival, annotate_congr (hsame.trans hsettings.symm)
      (hinserts.trans hinserter.symm) (hdetects.trans hdetector.symm) hresolve⟩

theorem annotate_of_owner_of_nested :
    let inner : Text × RuleConfig := ("./texel\\theme/".toList, ⟨"inner".toList, [], none⟩)
    let config : Config :=
      { Config.builtin with
        rules := [ ("texel".toList, ⟨"outer".toList, [], some "outer notes".toList⟩), inner ] }
    let rules :=
      [ ("tex".toList, ⟨"partial".toList, [], none⟩), inner,
        ("texel/".toList, ⟨"another".toList, [], some "other notes".toList⟩) ]
    let path := "texel/theme/load.go".toList
    ∃ table other processor rival, config.table = .ok table ∧
      { config with rules }.table = .ok other ∧
      (∀ entry ∈ config.rules, entry ∉ rules → table.Foreign path (config.ruleOf entry)) ∧
      (∀ entry ∈ rules, entry ∉ config.rules → table.Foreign path (config.ruleOf entry)) ∧
      ofConfig config "2025".toList "/".toList .write = .ok processor ∧
      ofConfig { config with rules } "2025".toList "/".toList .write = .ok rival ∧
      (∃ rule, config.Owner path rule ∧ (∀ other, config.Owner path other → other = rule) ∧
        (processor.header path)[6]? = some (Config.commentMark ++ ' ' ::
          ("Notes: ".toList ++ (rule.notes <|> config.fallback.notes).getD []))) ∧
      ∀ content, rival.annotate path content = processor.annotate path content := by
  intro inner config rules path
  obtain ⟨table, htable, hforeign⟩ := exists_ok_of_any config.table
    (fun table ↦
      decide (∀ entry ∈ config.rules, entry ∉ rules → table.Foreign path (config.ruleOf entry)) &&
      decide (∀ entry ∈ rules, entry ∉ config.rules → table.Foreign path (config.ruleOf entry)))
    (by decide +kernel)
  simp only [Bool.and_eq_true, decide_eq_true_eq] at hforeign
  obtain ⟨hgone, hcome⟩ := hforeign
  obtain ⟨other, hother, -⟩ := exists_ok_of_any { config with rules }.table (fun _ ↦ true)
    (by decide +kernel)
  obtain ⟨processor, hprocessor, hnotes, halike⟩ :=
    annotate_of_owner htable path "2025".toList "/".toList .write
  obtain ⟨rival, hrival, hannotate⟩ := halike rules other hother hgone hcome
  exact ⟨table, other, processor, rival, htable, hother, hgone, hcome, hprocessor, hrival, hnotes,
    hannotate⟩

end Processor

end HeaderStamp
