import HeaderStamp.Proofs.Config.Records

namespace HeaderStamp.Config

open Toml (Value Fields)

namespace HeaderFields

def slots : List (Slot HeaderConfig) :=
  [ ⟨"holder", Value.text?, HeaderConfig.holder, fun h holder ↦ { h with holder }⟩,
    ⟨"license", Value.text?, HeaderConfig.license, fun h license ↦ { h with license }⟩,
    ⟨"year", Value.someText?, HeaderConfig.year, fun h year ↦ { h with year }⟩,
    ⟨"extensions", Value.texts?, HeaderConfig.extensions,
      fun h extensions ↦ { h with extensions }⟩ ]

theorem lawful_slots : Lawful slots where
  get_put := by simp [slots]
  apart := by simp [slots, Slot.apart_iff]

theorem setBy_set : SetBy slots set := by
  refine .cons ?_ (setBy_read toOption_textOf) (by simp)
  refine .cons ?_ (setBy_read toOption_textOf) (by simp)
  refine .cons ?_ setBy_someText (by simp)
  refine .cons ?_ (setBy_read toOption_textsOf) (by simp)
  exact setBy_nil

end HeaderFields

namespace MarkerFields

def slots : List (Slot MarkerConfig) :=
  [ ⟨"spdx", Value.text?, MarkerConfig.spdx, fun m spdx ↦ { m with spdx }⟩,
    ⟨"directive", Value.text?, MarkerConfig.directive, fun m directive ↦ { m with directive }⟩,
    ⟨"alt-directive", Value.text?, MarkerConfig.altDirective,
      fun m altDirective ↦ { m with altDirective }⟩,
    ⟨"bench-suffix", Value.text?, MarkerConfig.benchSuffix,
      fun m benchSuffix ↦ { m with benchSuffix }⟩,
    ⟨"test-suffixes", Value.texts?, MarkerConfig.testSuffixes,
      fun m testSuffixes ↦ { m with testSuffixes }⟩,
    ⟨"bench-usage", Value.text?, MarkerConfig.benchUsage,
      fun m benchUsage ↦ { m with benchUsage }⟩,
    ⟨"test-usage", Value.text?, MarkerConfig.testUsage, fun m testUsage ↦ { m with testUsage }⟩ ]

theorem lawful_slots : Lawful slots where
  get_put := by simp [slots]
  apart := by simp [slots, Slot.apart_iff]

theorem setBy_set : SetBy slots set := by
  refine .cons ?_ (setBy_read toOption_textOf) (by simp)
  refine .cons ?_ (setBy_read toOption_textOf) (by simp)
  refine .cons ?_ (setBy_read toOption_textOf) (by simp)
  refine .cons ?_ (setBy_read toOption_textOf) (by simp)
  refine .cons ?_ (setBy_read toOption_textsOf) (by simp)
  refine .cons ?_ (setBy_read toOption_textOf) (by simp)
  refine .cons ?_ (setBy_read toOption_textOf) (by simp)
  exact setBy_nil

end MarkerFields

namespace PartialRule

def slots : List (Slot PartialRule) :=
  [ ⟨"component", Value.someText?, component, fun r component ↦ { r with component }⟩,
    ⟨"usage", Value.someText?, usage, fun r usage ↦ { r with usage }⟩,
    ⟨"notes", Value.someText?, notes, fun r notes ↦ { r with notes }⟩ ]

theorem lawful_slots : Lawful slots where
  get_put := by simp [slots]
  apart := by simp [slots, Slot.apart_iff]

theorem setBy_set : SetBy slots set := by
  refine .cons ?_ setBy_someText (by simp)
  refine .cons ?_ setBy_someText (by simp)
  refine .cons ?_ setBy_someText (by simp)
  exact setBy_nil

end PartialRule

def sections : List (Slot Config) :=
  [ ⟨"header", fun v ↦ (HeaderFields.read v).toOption, header, fun c header ↦ { c with header }⟩,
    ⟨"markers", fun v ↦ (MarkerFields.read v).toOption, markers,
      fun c markers ↦ { c with markers }⟩,
    ⟨"default", fun v ↦ (PartialRule.read v).toOption, fallback,
      fun c fallback ↦ { c with fallback }⟩,
    ⟨"rules", fun v ↦ (rulesOf v).toOption, rules, fun c rules ↦ { c with rules }⟩ ]

theorem lawful_sections : Lawful sections where
  get_put := by simp [sections]
  apart := by simp [sections, Slot.apart_iff]

theorem setBy_setField : SetBy sections setField := by
  refine .cons ?_ (setBy_read fun _ ↦ rfl) (by simp)
  refine .cons ?_ (setBy_read fun _ ↦ rfl) (by simp)
  refine .cons ?_ (setBy_read fun _ ↦ rfl) (by simp)
  refine .cons ?_ (setBy_read fun _ ↦ rfl) (by simp)
  exact setBy_nil

@[mk_iff]
structure MakesRule (fields : Fields) : Prop where
  fits : Fits PartialRule.slots fields
  component : (fields.lookup "component".toList).isSome
  usage : (fields.lookup "usage".toList).isSome

/-- The rule that a table makes. Notes that it does not have are not taken from elsewhere. -/
structure IsRuleOf (fields : Fields) (rule : RuleConfig) : Prop where
  component : fields.text? "component".toList = some rule.component
  usage : fields.text? "usage".toList = some rule.usage
  notes : fields.text? "notes".toList = rule.notes

/-- The rules that a table of tables makes: those of its keys, each once and in order, and no
others. -/
structure AreRulesOf (entries : Fields) (rules : List (Text × RuleConfig)) : Prop where
  ordered : rules.Pairwise fun a b ↦ Text.le a.1 b.1 = true ∧ a.1 ≠ b.1
  lookup : ∀ directory, Option.Rel IsRuleOf (entries.table? directory) (rules.lookup directory)

def sectionKeys : List String := ["header", "markers", "default", "rules"]

/-- Where a document has a section or a rule, it has a table. -/
@[mk_iff]
structure Tabular (document : Fields) : Prop where
  sections : ∀ key ∈ sectionKeys, ∀ value ∈ document.lookup key.toList, value.fields?.isSome
  rules : ∀ entries ∈ document.table? "rules".toList, ∀ entry ∈ entries, entry.2.fields?.isSome

/-- A document that makes a configuration: in it and in all its tables every key is known, every
value is of the declared kind, and every rule has what it needs. -/
@[mk_iff]
structure Admissible (document : Fields) : Prop where
  known : ∀ field ∈ document, ∃ key ∈ sectionKeys, field.1 = key.toList
  header : ∀ fields ∈ document.table? "header".toList, Fits HeaderFields.slots fields
  markers : ∀ fields ∈ document.table? "markers".toList, Fits MarkerFields.slots fields
  fallback : ∀ fields ∈ document.table? "default".toList, MakesRule fields
  rules : ∀ entries ∈ document.table? "rules".toList, ∀ entry ∈ entries,
    ∀ fields ∈ entry.2.fields?, MakesRule fields

/-- The built-in configuration with what a document says in its place: the header and the markers
key by key, the fallback and the rules as a whole. -/
structure OverridesBuiltin (document : Fields) (config : Config) : Prop where
  header : Overrides HeaderFields.slots ((document.table? "header".toList).getD [])
    HeaderConfig.builtin config.header
  markers : Overrides MarkerFields.slots ((document.table? "markers".toList).getD [])
    MarkerConfig.builtin config.markers
  fallback :
    match document.table? "default".toList with
    | some fields => IsRuleOf fields config.fallback
    | none => config.fallback = RuleConfig.builtinFallback
  rules :
    match document.table? "rules".toList with
    | some entries => AreRulesOf entries config.rules
    | none => config.rules = RuleConfig.builtinRules

instance (fields : Fields) : Decidable (MakesRule fields) :=
  decidable_of_iff' _ (makesRule_iff fields)

instance (document : Fields) : Decidable (Tabular document) :=
  decidable_of_iff' _ (tabular_iff document)

instance (document : Fields) : Decidable (Admissible document) :=
  decidable_of_iff' _ (admissible_iff document)

theorem fields?_eq_some_iff {value : Value} {fields : Fields} :
    value.fields? = some fields ↔ ∃ origin, value = .table origin fields := by
  cases value <;> simp [Value.fields?, eq_comm]

theorem distinct_of_fields? {value : Value} {fields : Fields} (h : value.Distinct)
    (hfields : value.fields? = some fields) : fields.Distinct := by
  obtain ⟨origin, rfl⟩ := fields?_eq_some_iff.mp hfields
  exact Value.distinct_table_iff.mp h

section Records

variable {α : Type} {set : α → Text → Value → Decoded α} {slots : List (Slot α)}
  {setters : List (α → Value → Decoded α)} {expected : String} {start record : α}
  {fields : Fields} {value : Value}

theorem recordOf_table (h : value.fields? = some fields) :
    recordOf expected set setters start value = fold set start fields := by
  obtain ⟨origin, rfl⟩ := fields?_eq_some_iff.mp h
  rfl

theorem exists_recordOf_iff (hset : SetBy slots set) (h : value.fields? = some fields) :
    (∃ record, recordOf expected set setters start value = .ok record) ↔ Fits slots fields := by
  simp only [recordOf_table h, hset.exists_fold_iff]

theorem overrides_of_recordOf (hset : SetBy slots set) (hlaw : Lawful slots)
    (hnodup : (fields.map Prod.fst).Nodup) (h : value.fields? = some fields)
    (hread : recordOf expected set setters start value = .ok record) :
    Overrides slots fields start record := by
  rw [recordOf_table h] at hread
  exact hset.overrides_of_fold hlaw hnodup hread

end Records

namespace PartialRule

variable {fields : Fields} {value : Value} {rule : RuleConfig} {start record : PartialRule}

theorem finish_eq_ok_iff {named : Bool} :
    finish named record = .ok rule ↔
      record = ⟨some rule.component, some rule.usage, rule.notes⟩ := by
  obtain ⟨component, usage, notes⟩ := record
  obtain ⟨component', usage', notes'⟩ := rule
  cases component with
  | none => exact ⟨nofun, nofun⟩
  | some component =>
    cases usage with
    | none => exact ⟨nofun, nofun⟩
    | some usage =>
      rw [finish, Except.ok.injEq, RuleConfig.mk.injEq, mk.injEq, Option.some.injEq,
        Option.some.injEq]

theorem text?_of_overridden {name : String} {get : PartialRule → Option Text}
    {put : PartialRule → Option Text → PartialRule}
    (h : Slot.Overridden ⟨name, Value.someText?, get, put⟩ fields start record)
    (hstart : get start = none) :
    fields.text? name.toList = get record ∧
      ((fields.lookup name.toList).isSome ↔ (get record).isSome) := by
  rw [Slot.Overridden] at h
  rw [Fields.text?]
  dsimp only at h
  cases hlookup : fields.lookup name.toList with
  | none =>
    rw [hlookup] at h
    simp [h, hstart]
  | some value =>
    rw [hlookup] at h
    obtain ⟨t, ht, hget⟩ := Option.map_eq_some_iff.mp h
    simp [ht, ← hget]

/-- What was not set before is set by what stands under its key, and by nothing else. -/
theorem text?_of_fold (hnodup : (fields.map Prod.fst).Nodup)
    (hfold : fold set ⟨none, none, none⟩ fields = .ok record) :
    (fields.text? "component".toList = record.component ∧
      ((fields.lookup "component".toList).isSome ↔ record.component.isSome)) ∧
    (fields.text? "usage".toList = record.usage ∧
      ((fields.lookup "usage".toList).isSome ↔ record.usage.isSome)) ∧
    fields.text? "notes".toList = record.notes := by
  have hover := setBy_set.overrides_of_fold lawful_slots hnodup hfold
  rw [Overrides, slots, List.forall_mem_cons, List.forall_mem_cons, List.forall_mem_cons] at hover
  obtain ⟨hcomponent, husage, hnotes, -⟩ := hover
  exact ⟨text?_of_overridden hcomponent rfl, text?_of_overridden husage rfl,
    (text?_of_overridden hnotes rfl).1⟩

theorem read_eq_ok_iff (h : value.fields? = some fields) :
    read value = .ok rule ↔
      fold set ⟨none, none, none⟩ fields =
        .ok ⟨some rule.component, some rule.usage, rule.notes⟩ := by
  rw [read, recordOf_table h, bind_eq_ok_iff]
  simp only [finish_eq_ok_iff, exists_eq_right]

theorem isRuleOf_of_read (hnodup : (fields.map Prod.fst).Nodup) (h : value.fields? = some fields)
    (hread : read value = .ok rule) : IsRuleOf fields rule := by
  obtain ⟨hcomponent, husage, hnotes⟩ := text?_of_fold hnodup ((read_eq_ok_iff h).mp hread)
  exact ⟨hcomponent.1, husage.1, hnotes⟩

theorem exists_read_iff (hnodup : (fields.map Prod.fst).Nodup) (h : value.fields? = some fields) :
    (∃ rule, read value = .ok rule) ↔ MakesRule fields := by
  simp only [read_eq_ok_iff h]
  constructor
  · rintro ⟨rule, hfold⟩
    obtain ⟨hcomponent, husage, -⟩ := text?_of_fold hnodup hfold
    exact ⟨setBy_set.exists_fold_iff.mp ⟨_, hfold⟩, hcomponent.2.mpr rfl, husage.2.mpr rfl⟩
  · intro hmakes
    obtain ⟨record, hfold⟩ := setBy_set.exists_fold_iff.mpr hmakes.fits
    obtain ⟨hcomponent, husage, -⟩ := text?_of_fold hnodup hfold
    obtain ⟨component, hc⟩ := Option.isSome_iff_exists.mp (hcomponent.2.mp hmakes.component)
    obtain ⟨usage, hu⟩ := Option.isSome_iff_exists.mp (husage.2.mp hmakes.usage)
    refine ⟨⟨component, usage, record.notes⟩, ?_⟩
    rw [hfold, ← hc, ← hu]

end PartialRule

section Rules

variable {entries : Fields} {rules : List (Text × RuleConfig)} {value : Value}

theorem rulesOf_table (h : value.fields? = some entries) :
    rulesOf value = (inOrder entries).mapM fun (directory, value) ↦
      (PartialRule.read value).map (directory, ·) := by
  obtain ⟨origin, rfl⟩ := fields?_eq_some_iff.mp h
  rfl

theorem keywise_of_rulesOf (h : value.fields? = some entries) (hrules : rulesOf value = .ok rules) :
    Keywise (fun table rule ↦ PartialRule.read table = .ok rule) (inOrder entries) rules := by
  rw [rulesOf_table h] at hrules
  refine (forall₂_of_mapM_ok hrules).imp fun entry rule hrule ↦ ?_
  obtain ⟨read, hread, rfl⟩ := map_eq_ok_iff.mp hrule
  exact ⟨rfl, hread⟩

theorem areRulesOf_of_rulesOf (hentries : entries.Distinct)
    (htables : ∀ entry ∈ entries, entry.2.fields?.isSome) (h : value.fields? = some entries)
    (hrules : rulesOf value = .ok rules) : AreRulesOf entries rules where
  ordered := by
    have hkeys := (keywise_of_rulesOf h hrules).map_fst_eq
    have hnodup : (rules.map Prod.fst).Nodup := by
      rw [← hkeys]
      exact ((perm_inOrder entries).map Prod.fst).nodup_iff.mpr hentries.nodup
    have hle : (rules.map Prod.fst).Pairwise fun a b ↦ Text.le a b = true := by
      rw [← hkeys]
      exact List.pairwise_map.mpr (pairwise_inOrder entries)
    exact (List.pairwise_map.mp hle).and (List.pairwise_map.mp hnodup)
  lookup directory := by
    have hrel := (keywise_of_rulesOf h hrules).rel_lookup directory
    rw [lookup_eq_of_perm hentries.nodup (perm_inOrder entries)] at hrel
    rw [Fields.table?]
    generalize rules.lookup directory = found at hrel ⊢
    cases hlookup : entries.lookup directory with
    | none =>
      rw [hlookup] at hrel
      cases hrel
      exact .none
    | some table =>
      rw [hlookup] at hrel
      cases hrel with
      | some hread =>
        have hmem := Fields.mem_of_lookup hlookup
        obtain ⟨fields, hfields⟩ := Option.isSome_iff_exists.mp (htables _ hmem)
        have hdistinct := distinct_of_fields? (hentries.value _ hmem) hfields
        rw [Option.bind_some, hfields]
        exact .some (PartialRule.isRuleOf_of_read hdistinct.nodup hfields hread)

theorem exists_rulesOf_iff (hentries : entries.Distinct)
    (htables : ∀ entry ∈ entries, entry.2.fields?.isSome) (h : value.fields? = some entries) :
    (∃ rules, rulesOf value = .ok rules) ↔
      ∀ entry ∈ entries, ∀ fields, entry.2.fields? = some fields → MakesRule fields := by
  rw [rulesOf_table h, exists_mapM_ok_iff]
  simp only [(perm_inOrder entries).mem_iff, map_eq_ok_iff]
  refine forall₂_congr fun entry hmem ↦ ?_
  obtain ⟨fields, hfields⟩ := Option.isSome_iff_exists.mp (htables entry hmem)
  have hdistinct := distinct_of_fields? (hentries.value entry hmem) hfields
  have hrule := PartialRule.exists_read_iff hdistinct.nodup hfields
  constructor
  · rintro ⟨-, rule, hread, -⟩ other hother
    obtain rfl := Option.some.inj (hfields.symm.trans hother)
    exact hrule.mp ⟨rule, hread⟩
  · intro hmakes
    obtain ⟨rule, hread⟩ := hrule.mpr (hmakes fields hfields)
    exact ⟨_, rule, hread, rfl⟩

end Rules

section Document

variable {α β : Type} {document : Fields} {key : Text} {config : Config}

theorem exists_table? {value : Value} (hdocument : document.Distinct)
    (htable : ∀ value ∈ document.lookup key, value.fields?.isSome)
    (hlookup : document.lookup key = some value) :
    ∃ fields, value.fields? = some fields ∧ document.table? key = some fields ∧
      fields.Distinct := by
  obtain ⟨fields, hfields⟩ := Option.isSome_iff_exists.mp (htable value hlookup)
  refine ⟨fields, hfields, ?_, distinct_of_fields? (hdocument.of_lookup hlookup) hfields⟩
  rw [Fields.table?, hlookup, Option.bind_some, hfields]

theorem forall_lookup_iff {P : Fields → Prop} {read : Value → Decoded β}
    (hdocument : document.Distinct) (htable : ∀ value ∈ document.lookup key, value.fields?.isSome)
    (hread : ∀ value fields, value.fields? = some fields → document.table? key = some fields →
      fields.Distinct → ((∃ b, read value = .ok b) ↔ P fields)) :
    (∀ value, document.lookup key = some value → (read value).toOption.isSome) ↔
      ∀ fields ∈ document.table? key, P fields := by
  simp only [isSome_toOption_iff]
  constructor
  · intro hall fields hfields
    obtain ⟨value, hlookup, hvalue⟩ := Option.bind_eq_some_iff.mp hfields
    have hdistinct := distinct_of_fields? (hdocument.of_lookup hlookup) hvalue
    exact (hread value fields hvalue hfields hdistinct).mp (hall value hlookup)
  · intro hall value hlookup
    obtain ⟨fields, hvalue, hfields, hdistinct⟩ := exists_table? hdocument htable hlookup
    exact (hread value fields hvalue hfields hdistinct).mpr (hall fields hfields)

theorem match_table? {P : Fields → β → Prop} {read : Value → Decoded β} {start b : β}
    (hdocument : document.Distinct) (htable : ∀ value ∈ document.lookup key, value.fields?.isSome)
    (h : match document.lookup key with
      | some value => (read value).toOption = some b
      | none => b = start)
    (hread : ∀ value fields, value.fields? = some fields → document.table? key = some fields →
      fields.Distinct → read value = .ok b → P fields b) :
    match document.table? key with
    | some fields => P fields b
    | none => b = start := by
  cases hlookup : document.lookup key with
  | none =>
    rw [hlookup] at h
    rw [Fields.table?, hlookup]
    exact h
  | some value =>
    rw [hlookup] at h
    obtain ⟨fields, hvalue, hfields, hdistinct⟩ := exists_table? hdocument htable hlookup
    rw [hfields]
    exact hread value fields hvalue hfields hdistinct (toOption_eq_some_iff.mp h)

theorem overrides_getD {set : α → Text → Value → Decoded α} {slots : List (Slot α)}
    {setters : List (α → Value → Decoded α)} {expected : String} {start record : α}
    (hset : SetBy slots set) (hlaw : Lawful slots) (hdocument : document.Distinct)
    (htable : ∀ value ∈ document.lookup key, value.fields?.isSome)
    (h : match document.lookup key with
      | some value => (recordOf expected set setters start value).toOption = some record
      | none => record = start) :
    Overrides slots ((document.table? key).getD []) start record := by
  have hmatch := match_table? hdocument htable h fun value fields hvalue _ hdistinct hread ↦
    overrides_of_recordOf hset hlaw hdistinct.nodup hvalue hread
  cases hfields : document.table? key with
  | none =>
    rw [hfields] at hmatch
    exact fun slot _ ↦ congrArg slot.get hmatch
  | some fields =>
    rw [hfields] at hmatch
    exact hmatch

theorem fits_sections_iff (hdocument : document.Distinct) (htabular : Tabular document) :
    Fits sections document ↔ Admissible document := by
  rw [fits_iff lawful_sections hdocument.nodup, admissible_iff, sections, List.forall_mem_cons,
    List.forall_mem_cons, List.forall_mem_cons, List.forall_mem_singleton]
  refine and_congr ?known (and_congr ?header (and_congr ?markers (and_congr ?fallback ?rules)))
  case known => simp [sectionKeys]
  case header =>
    refine forall_lookup_iff hdocument (htabular.sections "header" (by decide)) ?_
    intro value fields hvalue _ _
    exact exists_recordOf_iff HeaderFields.setBy_set hvalue
  case markers =>
    refine forall_lookup_iff hdocument (htabular.sections "markers" (by decide)) ?_
    intro value fields hvalue _ _
    exact exists_recordOf_iff MarkerFields.setBy_set hvalue
  case fallback =>
    refine forall_lookup_iff hdocument (htabular.sections "default" (by decide)) ?_
    intro value fields hvalue _ hdistinct
    exact PartialRule.exists_read_iff hdistinct.nodup hvalue
  case rules =>
    refine forall_lookup_iff hdocument (htabular.sections "rules" (by decide)) ?_
    intro value entries hvalue hentries hdistinct
    exact exists_rulesOf_iff hdistinct (htabular.rules entries hentries) hvalue

theorem overridesBuiltin_of_overrides (hdocument : document.Distinct) (htabular : Tabular document)
    (h : Overrides sections document builtin config) : OverridesBuiltin document config := by
  rw [Overrides, sections, List.forall_mem_cons, List.forall_mem_cons, List.forall_mem_cons,
    List.forall_mem_singleton] at h
  obtain ⟨hheader, hmarkers, hfallback, hrules⟩ := h
  constructor
  case header =>
    exact overrides_getD HeaderFields.setBy_set HeaderFields.lawful_slots hdocument
      (htabular.sections "header" (by decide)) hheader
  case markers =>
    exact overrides_getD MarkerFields.setBy_set MarkerFields.lawful_slots hdocument
      (htabular.sections "markers" (by decide)) hmarkers
  case fallback =>
    refine match_table? hdocument (htabular.sections "default" (by decide)) hfallback ?_
    intro value fields hvalue _ hdistinct hread
    exact PartialRule.isRuleOf_of_read hdistinct.nodup hvalue hread
  case rules =>
    refine match_table? hdocument (htabular.sections "rules" (by decide)) hrules ?_
    intro value entries hvalue hentries hdistinct hread
    exact areRulesOf_of_rulesOf hdistinct (htabular.rules entries hentries) hvalue hread

/-- Decoding a document gives the built-in configuration with what the document says in its place,
and succeeds exactly if everything that it says can be taken over. -/
theorem decode_overrides (hdocument : document.Distinct) (htabular : Tabular document) :
    ((∃ config, decode document = .ok config) ↔ Admissible document) ∧
      ∀ config, decode document = .ok config → OverridesBuiltin document config := by
  constructor
  · rw [← fits_sections_iff hdocument htabular]
    exact setBy_setField.exists_fold_iff
  · intro config hdecode
    have hover := setBy_setField.overrides_of_fold lawful_sections hdocument.nodup hdecode
    exact overridesBuiltin_of_overrides hdocument htabular hover

end Document

theorem decode_overrides_of_three_sections :
    let text := "header.year = '2024'\nheader.extensions = ['rs']\n".toList ++
      "markers.test-suffixes = []\n".toList ++
      "rules.net = \x7busage = '', component = 'wire'\x7d".toList
    ∃ document ∈ Toml.read? text, document.Distinct ∧ Tabular document ∧ Admissible document ∧
      ∃ config, decode document = .ok config ∧ OverridesBuiltin document config := by
  intro text
  have hdocument : ∃ document ∈ Toml.read? text, Tabular document ∧ Admissible document := by
    decide +kernel
  obtain ⟨document, hread, htabular, hadmissible⟩ := hdocument
  have hdistinct : document.Distinct := Toml.distinct_of_read? hread
  obtain ⟨hsucceeds, hover⟩ := decode_overrides hdistinct htabular
  obtain ⟨config, hdecode⟩ := hsucceeds.mpr hadmissible
  exact ⟨document, hread, hdistinct, htabular, hadmissible, config, hdecode, hover config hdecode⟩

example : ¬ Admissible
    [ ("default".toList, .table .header
        [("component".toList, .string "tool".toList), ("notes".toList, .string [])]) ] := by
  decide +kernel

end HeaderStamp.Config
