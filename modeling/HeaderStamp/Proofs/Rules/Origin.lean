import HeaderStamp.Config.Basic

namespace HeaderStamp

namespace RuleTable

theorem normalizeFrom_eq_map {seen : List (Text × Text)} {rules normal : List DirectoryRule}
    (h : normalizeFrom seen rules = .ok normal) :
    normal = rules.map fun rule ↦ { rule with directory := normalize rule.directory } := by
  induction rules generalizing seen normal with
  | nil =>
    rw [normalizeFrom, Except.ok.injEq] at h
    exact h.symm
  | cons rule rules ih =>
    simp only [normalizeFrom] at h
    split at h
    · cases h
    · split at h
      · cases h
      · split at h
        · next rest hrest =>
          rw [Except.ok.injEq] at h
          rw [← h, ih hrest, List.map_cons]
        · cases h

theorem ofRules_eq_ok {rules : List DirectoryRule} {fallback : DirectoryRule} {table : RuleTable}
    (h : ofRules rules fallback = .ok table) :
    table.rules = rules.map (fun rule ↦ { rule with directory := normalize rule.directory }) ∧
      table.fallback = { fallback with directory := [] } := by
  rw [ofRules] at h
  cases hn : normalizeFrom [] rules with
  | error e =>
    rw [hn] at h
    cases h
  | ok normal =>
    rw [hn] at h
    cases h
    exact ⟨normalizeFrom_eq_map hn, rfl⟩

theorem foldl_deeper_mem {best : Option DirectoryRule} {rules : List DirectoryRule}
    {rule : DirectoryRule} (h : rules.foldl DirectoryRule.deeper best = some rule) :
    best = some rule ∨ rule ∈ rules := by
  induction rules generalizing best with
  | nil => exact .inl h
  | cons first rules ih =>
    rcases ih h with hbest | hmem
    · cases best with
      | none =>
        rw [DirectoryRule.deeper, Option.some.injEq] at hbest
        exact .inr (hbest ▸ List.mem_cons_self)
      | some old =>
        rw [DirectoryRule.deeper] at hbest
        split at hbest
        · exact .inl hbest
        · exact .inr (Option.some.inj hbest ▸ List.mem_cons_self)
    · exact .inr (List.mem_cons_of_mem first hmem)

theorem exists_rule_of_resolve (table : RuleTable) (path : Text) :
    ∃ rule ∈ table.fallback :: table.rules, table.resolve path = rule.metadata := by
  simp only [resolve]
  cases h : (table.rules.filter (·.covers (Text.dropLeadingPairs '.' '/' path))).foldl
      DirectoryRule.deeper none with
  | none => exact ⟨table.fallback, List.mem_cons_self, rfl⟩
  | some rule =>
    rcases foldl_deeper_mem h with hnone | hmem
    · cases hnone
    · exact ⟨rule, List.mem_cons_of_mem _ ((List.mem_filter.mp hmem).1), rfl⟩

end RuleTable

theorem Config.exists_rule_of_resolve {config : Config} {table : RuleTable}
    (h : config.table = .ok table) (path : Text) :
    ∃ rule ∈ config.fallback :: config.rules.map Prod.snd,
      (table.resolve path).component = rule.component ∧ (table.resolve path).usage = rule.usage ∧
        (table.resolve path).notes = rule.notes.getD config.fallbackNotes := by
  obtain ⟨hrules, hfallback⟩ := RuleTable.ofRules_eq_ok h
  obtain ⟨rule, hrule, hresolve⟩ := table.exists_rule_of_resolve path
  rw [hresolve]
  rcases List.mem_cons.mp hrule with rfl | hrule
  · refine ⟨config.fallback, List.mem_cons_self, ?_⟩
    rw [hfallback]
    refine ⟨rfl, rfl, ?_⟩
    simp only [DirectoryRule.metadata, DirectoryRule.fallback, fallbackNotes]
    cases config.fallback.notes <;> rfl
  · rw [hrules, List.map_map] at hrule
    obtain ⟨⟨directory, written⟩, hw, rfl⟩ := List.mem_map.mp hrule
    exact ⟨written, List.mem_cons_of_mem _ (List.mem_map_of_mem hw), rfl, rfl, rfl⟩

end HeaderStamp
