import HeaderStamp.Proofs.Rules.Resolution

namespace HeaderStamp.RuleTable

open DirectoryRule

/-- The normal and the written directories of rules, those of the last rule in front. -/
def spellings (rules : List DirectoryRule) : List (Text × Text) :=
  (rules.map fun rule ↦ (normalize rule.directory, rule.directory)).reverse

/-- All directories can stand in one table: in their normal form none is empty, and no two are the
same. -/
structure Acceptable (rules : List DirectoryRule) : Prop where
  ne_nil : ∀ rule ∈ rules, normalize rule.directory ≠ []
  nodup : (rules.map fun rule ↦ normalize rule.directory).Nodup

def Refused (earlier : List DirectoryRule) (rule : DirectoryRule) : Prop :=
  normalize rule.directory = [] ∨
    ∃ first ∈ earlier, normalize first.directory = normalize rule.directory

structure FirstRefused (rules earlier : List DirectoryRule) (rule : DirectoryRule) : Prop where
  leads : earlier ++ [rule] <+: rules
  refused : Refused earlier rule
  first : ∀ front other, front ++ [other] <+: earlier → ¬ Refused front other

/-- What is said of a rule that is refused behind the earlier ones. Directories are told as they are
written, but for the normal form that two of them share. -/
inductive Blames (earlier : List DirectoryRule) (rule : DirectoryRule) : ConfigError → Prop
  | empty : normalize rule.directory = [] →
      Blames earlier rule (.invalidRule rule.directory "prefix cannot be empty".toList)
  | ambiguous {front back : List DirectoryRule} {first : DirectoryRule} :
      normalize rule.directory ≠ [] → earlier = front ++ first :: back →
      normalize first.directory = normalize rule.directory →
      (∀ other ∈ front ++ back, normalize other.directory ≠ normalize rule.directory) →
      Blames earlier rule
        (.ambiguous (normalize rule.directory) first.directory rule.directory)

variable {rules earlier : List DirectoryRule} {rule : DirectoryRule} {e : ConfigError}

theorem spellings_append (front back : List DirectoryRule) :
    spellings (front ++ back) = spellings back ++ spellings front := by
  simp [spellings]

theorem lookup_spellings_eq_none_iff {directory : Text} :
    (spellings rules).lookup directory = none ↔
      ∀ rule ∈ rules, normalize rule.directory ≠ directory := by
  rw [List.lookup_eq_none_iff]
  simp [spellings, @eq_comm _ directory]

theorem lookup_spellings {front back : List DirectoryRule} {first : DirectoryRule}
    (hother : ∀ other ∈ front ++ back, normalize other.directory ≠ normalize first.directory) :
    (spellings (front ++ first :: back)).lookup (normalize first.directory) =
      some first.directory := by
  have hback : (spellings back).lookup (normalize first.directory) = none := by
    rw [lookup_spellings_eq_none_iff]
    intro other hmem
    exact hother other (List.mem_append_right front hmem)
  rw [List.append_cons, spellings_append, List.lookup_append, hback, spellings_append]
  simp [spellings]

theorem acceptable_nil : Acceptable [] := ⟨List.forall_mem_nil _, List.nodup_nil⟩

theorem Acceptable.of_append {more : List DirectoryRule} (h : Acceptable (rules ++ more)) :
    Acceptable rules := by
  have hnodup := h.nodup
  rw [List.map_append] at hnodup
  exact ⟨fun rule hmem ↦ h.ne_nil rule (List.mem_append_left more hmem), hnodup.of_append_left⟩

theorem acceptable_append_iff :
    Acceptable (earlier ++ [rule]) ↔ Acceptable earlier ∧ ¬ Refused earlier rule := by
  constructor
  · intro h
    refine ⟨h.of_append, ?_⟩
    rintro (hempty | ⟨first, hfirst, hsame⟩)
    · exact h.ne_nil rule (by simp) hempty
    · have hnodup := h.nodup
      rw [List.map_append, List.nodup_append] at hnodup
      exact hnodup.2.2 _ (List.mem_map_of_mem hfirst) _ (by simp) hsame
  · rintro ⟨h, hrule⟩
    obtain ⟨hne, hfresh⟩ := not_or.mp hrule
    constructor
    · intro other hmem
      rcases List.mem_append.mp hmem with hmem | hmem
      · exact h.ne_nil other hmem
      · rwa [List.mem_singleton.mp hmem]
    · rw [List.map_append, List.nodup_append]
      refine ⟨h.nodup, by simp, ?_⟩
      simpa using fun first hmem hsame ↦ hfresh ⟨first, hmem, hsame⟩

theorem acceptable_iff :
    Acceptable rules ↔ ∀ front other, front ++ [other] <+: rules → ¬ Refused front other := by
  induction rules using List.reverseRecOn with
  | nil => simp [acceptable_nil]
  | append_singleton rules rule ih =>
    simp only [acceptable_append_iff, ih, List.prefix_concat_iff, List.append_singleton_inj]
    constructor
    · rintro ⟨hrules, hrule⟩ front other (⟨rfl, rfl⟩ | hprefix)
      · exact hrule
      · exact hrules front other hprefix
    · intro h
      exact ⟨fun front other hprefix ↦ h front other (.inr hprefix), h rules rule (.inl ⟨rfl, rfl⟩)⟩

theorem Blames.refused (h : Blames earlier rule e) : Refused earlier rule := by
  cases h with
  | empty hempty => exact .inl hempty
  | ambiguous _ hearlier hsame _ => exact .inr ⟨_, by simp [hearlier], hsame⟩

theorem exists_of_lookup_spellings {directory written : Text} (h : Acceptable rules)
    (hlookup : (spellings rules).lookup directory = some written) :
    ∃ front first back, rules = front ++ first :: back ∧ normalize first.directory = directory ∧
      first.directory = written ∧
      ∀ other ∈ front ++ back, normalize other.directory ≠ directory := by
  have hseen : ¬ ∀ first ∈ rules, normalize first.directory ≠ directory := by
    rw [← lookup_spellings_eq_none_iff, hlookup]
    exact Option.some_ne_none written
  push Not at hseen
  obtain ⟨first, hfirst, rfl⟩ := hseen
  obtain ⟨front, back, rfl⟩ := List.append_of_mem hfirst
  have hother : ∀ other ∈ front ++ back,
      normalize other.directory ≠ normalize first.directory := by
    have hnodup := h.nodup
    rw [List.map_append, List.map_cons, List.nodup_middle, List.nodup_cons] at hnodup
    intro other hmem hagain
    rw [← List.map_append, ← hagain] at hnodup
    exact hnodup.1 (List.mem_map_of_mem hmem)
  rw [lookup_spellings hother, Option.some.injEq] at hlookup
  exact ⟨front, first, back, rfl, rfl, hlookup, hother⟩

/-- What has been seen so far decides about the next rule: the directory that is looked up is
that of the one earlier rule with the same normal form. -/
theorem blames_iff (h : Acceptable earlier) :
    Blames earlier rule e ↔
      (normalize rule.directory = [] ∧
        e = .invalidRule rule.directory "prefix cannot be empty".toList) ∨
      normalize rule.directory ≠ [] ∧
        ∃ first, (spellings earlier).lookup (normalize rule.directory) = some first ∧
          e = .ambiguous (normalize rule.directory) first rule.directory := by
  constructor
  · intro hblames
    cases hblames with
    | empty hempty => exact .inl ⟨hempty, rfl⟩
    | @ambiguous front back first hne hearlier hsame hother =>
      rw [← hsame] at hother
      refine .inr ⟨hne, first.directory, ?_, rfl⟩
      rw [hearlier, ← hsame, lookup_spellings hother]
  · rintro (⟨hempty, rfl⟩ | ⟨hne, written, hlookup, rfl⟩)
    · exact .empty hempty
    · obtain ⟨front, first, back, hearlier, hsame, rfl, hother⟩ :=
        exists_of_lookup_spellings h hlookup
      exact .ambiguous hne hearlier hsame hother

theorem not_refused_iff :
    ¬ Refused earlier rule ↔
      normalize rule.directory ≠ [] ∧
        (spellings earlier).lookup (normalize rule.directory) = none := by
  rw [Refused, lookup_spellings_eq_none_iff]
  push Not
  rfl

theorem normalizeFrom_cons_eq_error_iff {seen : List (Text × Text)} :
    normalizeFrom seen (rule :: rules) = .error e ↔
      (normalize rule.directory = [] ∧
        e = .invalidRule rule.directory "prefix cannot be empty".toList) ∨
      (normalize rule.directory ≠ [] ∧
        ∃ first, seen.lookup (normalize rule.directory) = some first ∧
          e = .ambiguous (normalize rule.directory) first rule.directory) ∨
      (normalize rule.directory ≠ [] ∧ seen.lookup (normalize rule.directory) = none) ∧
        normalizeFrom ((normalize rule.directory, rule.directory) :: seen) rules = .error e := by
  rw [normalizeFrom]
  by_cases hempty : normalize rule.directory = []
  · simp [hempty, @eq_comm _ e]
  · cases hseen : seen.lookup (normalize rule.directory) with
    | some first => simp [hempty, @eq_comm _ e]
    | none =>
      cases normalizeFrom ((normalize rule.directory, rule.directory) :: seen) rules with
      | error other => simp [hempty]
      | ok rest => simp [hempty]

/-- One step: the next rule is blamed itself, or it joins the earlier ones. -/
theorem normalizeFrom_spellings_cons (h : Acceptable earlier) :
    normalizeFrom (spellings earlier) (rule :: rules) = .error e ↔
      Blames earlier rule e ∨ Acceptable (earlier ++ [rule]) ∧
        normalizeFrom (spellings (earlier ++ [rule])) rules = .error e := by
  have hjoin : spellings (earlier ++ [rule]) =
      (normalize rule.directory, rule.directory) :: spellings earlier := by
    simp [spellings]
  rw [normalizeFrom_cons_eq_error_iff, ← or_assoc, ← blames_iff h, ← not_refused_iff, hjoin,
    acceptable_append_iff, and_iff_right h]

/-- The whole run: the first rule without a place behind those before it is blamed. -/
theorem normalizeFrom_eq_error_iff (h : Acceptable earlier) :
    normalizeFrom (spellings earlier) rules = .error e ↔
      ∃ between rule, between ++ [rule] <+: rules ∧ Acceptable (earlier ++ between) ∧
        Blames (earlier ++ between) rule e := by
  induction rules generalizing earlier with
  | nil => simp [normalizeFrom]
  | cons next rules ih =>
    rw [normalizeFrom_spellings_cons h]
    constructor
    · rintro (hblames | ⟨hnext, hrest⟩)
      · exact ⟨[], next, by simp, by simpa using h, by simpa using hblames⟩
      · obtain ⟨between, rule, hprefix, haccept, hblames⟩ := (ih hnext).mp hrest
        refine ⟨next :: between, rule, by simpa using hprefix, ?_, ?_⟩
        · simpa using haccept
        · simpa using hblames
    · rintro ⟨between, rule, hprefix, haccept, hblames⟩
      cases between with
      | nil =>
        obtain rfl : rule = next := by simpa using hprefix
        exact .inl (by simpa using hblames)
      | cons first between =>
        obtain ⟨rfl, hbetween⟩ : first = next ∧ between ++ [rule] <+: rules := by
          simpa using hprefix
        rw [List.append_cons] at haccept hblames
        have hfirst := haccept.of_append
        exact .inr ⟨hfirst, (ih hfirst).mpr ⟨between, rule, hbetween, haccept, hblames⟩⟩

theorem ofRules_eq_ok_iff {fallback : DirectoryRule} {table : RuleTable} :
    ofRules rules fallback = .ok table ↔
      Acceptable rules ∧ table = ⟨rules.map normal, { fallback with directory := [] }⟩ := by
  have hkept {table : RuleTable} (h : ofRules rules fallback = .ok table) :
      table = ⟨rules.map normal, { fallback with directory := [] }⟩ := by
    obtain ⟨hrules, hfallback⟩ := ofRules_eq_ok h
    cases table
    rw [RuleTable.mk.injEq]
    exact ⟨hrules, hfallback⟩
  constructor
  · intro h
    obtain ⟨hne, hnodup⟩ := exists_ofRules_iff.mp ⟨table, h⟩
    exact ⟨⟨hne, hnodup⟩, hkept h⟩
  · rintro ⟨haccept, rfl⟩
    obtain ⟨table, h⟩ := (@exists_ofRules_iff rules fallback).mpr ⟨haccept.ne_nil, haccept.nodup⟩
    rw [h, hkept h]

theorem ofRules_eq_error_iff {fallback : DirectoryRule} :
    ofRules rules fallback = .error e ↔
      ∃ earlier rule, FirstRefused rules earlier rule ∧ Blames earlier rule e := by
  have hloop :
      ofRules rules fallback = .error e ↔ normalizeFrom (spellings []) rules = .error e := by
    rw [ofRules, show spellings [] = [] from rfl]
    cases normalizeFrom [] rules <;> simp [Except.map]
  rw [hloop, normalizeFrom_eq_error_iff acceptable_nil]
  simp only [List.nil_append]
  constructor
  · rintro ⟨earlier, rule, hleads, haccept, hblames⟩
    exact ⟨earlier, rule, ⟨hleads, hblames.refused, acceptable_iff.mp haccept⟩, hblames⟩
  · rintro ⟨earlier, rule, hfirst, hblames⟩
    exact ⟨earlier, rule, hfirst.leads, acceptable_iff.mpr hfirst.first, hblames⟩

/-- Rules make a table exactly if in their normal form no directory is empty and no two are the
same, and the table keeps them all in their order. Otherwise the error is about the first rule whose
directory is empty or that of an earlier rule. -/
theorem ofRules_verdict (rules : List DirectoryRule) (fallback : DirectoryRule) :
    (∀ table, ofRules rules fallback = .ok table ↔
      Acceptable rules ∧ table = ⟨rules.map normal, { fallback with directory := [] }⟩) ∧
    ∀ e, ofRules rules fallback = .error e ↔
      ∃ earlier rule, FirstRefused rules earlier rule ∧ Blames earlier rule e :=
  ⟨fun _ ↦ ofRules_eq_ok_iff, fun _ ↦ ofRules_eq_error_iff⟩

example :
    ofRules
      [ ⟨".\\texel".toList, "desktop".toList, [], []⟩, ⟨"protocol".toList, "wire".toList, [], []⟩,
        ⟨" texel/".toList, "engine".toList, [], []⟩, ⟨"./".toList, "root".toList, [], []⟩ ]
      (.fallback "rest".toList [] []) =
      .error (.ambiguous "texel".toList ".\\texel".toList " texel/".toList) := by
  decide +kernel

end HeaderStamp.RuleTable
