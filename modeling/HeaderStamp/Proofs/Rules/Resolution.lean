import HeaderStamp.Proofs.Rules.Origin
import HeaderStamp.Proofs.Text.Pieces
import Mathlib.Data.List.Nodup

namespace HeaderStamp

theorem Text.exists_eq_append_dropLeadingPairs (a b : Char) (t : Text) :
    ∃ n, t = (List.replicate n [a, b]).flatten ++ dropLeadingPairs a b t ∧
      ¬ [a, b] <+: dropLeadingPairs a b t := by
  fun_induction dropLeadingPairs a b t with
  | case1 c d rest hpair ih =>
    obtain ⟨rfl, rfl⟩ := hpair
    obtain ⟨n, hn, hend⟩ := ih
    refine ⟨n + 1, ?_, hend⟩
    rw [List.replicate_succ, List.flatten_cons, List.append_assoc, ← hn]
    rfl
  | case2 c d rest hpair =>
    refine ⟨0, rfl, ?_⟩
    rintro ⟨tail, htail⟩
    simp only [List.cons_append, List.cons.injEq] at htail
    exact hpair ⟨htail.1.symm, htail.2.1.symm⟩
  | case3 t hshort =>
    refine ⟨0, rfl, ?_⟩
    rintro ⟨tail, rfl⟩
    exact hshort a b tail rfl

theorem Text.dropLeadingPairs_of_not_prefix {a b : Char} {t : Text} (h : ¬ [a, b] <+: t) :
    dropLeadingPairs a b t = t := by
  fun_cases dropLeadingPairs a b t with
  | case1 c d rest hpair =>
    obtain ⟨rfl, rfl⟩ := hpair
    exact absurd (List.prefix_append [c, d] rest) h
  | case2 => rfl
  | case3 => rfl

namespace DirectoryRule

theorem covers_iff {rule : DirectoryRule} {path : Text} :
    rule.covers path = true ↔ path = rule.directory ∨ rule.directory ++ ['/'] <+: path := by
  rw [covers]
  constructor
  · intro h
    split at h
    · cases h
    · rename_i hrest
      exact .inl (by simpa using Text.dropStart?_eq_some_iff.mp hrest)
    · rename_i c tail hrest
      obtain rfl : c = '/' := by simpa using h
      refine .inr ⟨tail, ?_⟩
      rw [Text.dropStart?_eq_some_iff.mp hrest]
      simp
  · rintro (rfl | ⟨tail, rfl⟩)
    · have hrest : Text.dropStart? rule.directory rule.directory = some [] :=
        Text.dropStart?_eq_some_iff.mpr (List.append_nil _).symm
      rw [hrest]
    · have hrest : Text.dropStart? rule.directory (rule.directory ++ ['/'] ++ tail) =
          some ('/' :: tail) :=
        Text.dropStart?_eq_some_iff.mpr (by simp)
      rw [hrest]
      simp

theorem directory_prefix_of_covers {rule : DirectoryRule} {path : Text}
    (h : rule.covers path = true) : rule.directory <+: path := by
  rcases covers_iff.mp h with rfl | hslash
  · exact List.prefix_rfl
  · exact (List.prefix_append _ _).trans hslash

theorem directory_eq_of_covers {a b : DirectoryRule} {path : Text} (ha : a.covers path = true)
    (hb : b.covers path = true) (hlength : a.directory.length = b.directory.length) :
    a.directory = b.directory := by
  have hprefix := List.prefix_of_prefix_length_le (directory_prefix_of_covers ha)
    (directory_prefix_of_covers hb) hlength.le
  exact hprefix.eq_of_length hlength

theorem foldl_deeper_eq_none_iff {best : Option DirectoryRule} {rules : List DirectoryRule} :
    rules.foldl deeper best = none ↔ best = none ∧ rules = [] := by
  induction rules generalizing best with
  | nil => simp
  | cons rule rules ih =>
    have hsome : deeper best rule ≠ none := by
      cases best with
      | none => simp [deeper]
      | some old => rw [deeper]; split <;> simp
    simp [ih, hsome]

theorem length_le_of_foldl_deeper {best : Option DirectoryRule} {rules : List DirectoryRule}
    {deepest : DirectoryRule} (h : rules.foldl deeper best = some deepest) :
    (∀ rule ∈ best, rule.directory.length ≤ deepest.directory.length) ∧
      ∀ rule ∈ rules, rule.directory.length ≤ deepest.directory.length := by
  induction rules generalizing best with
  | nil =>
    rw [List.foldl_nil] at h
    simp [h]
  | cons first rules ih =>
    obtain ⟨hbest, hrules⟩ := ih h
    cases best with
    | none =>
      have hfirst := hbest first rfl
      exact ⟨by simp, List.forall_mem_cons.mpr ⟨hfirst, hrules⟩⟩
    | some old =>
      rw [deeper] at hbest
      split at hbest
      · rename_i hlt
        have hold := hbest old rfl
        refine ⟨by simpa using hold, List.forall_mem_cons.mpr ⟨?_, hrules⟩⟩
        omega
      · rename_i hge
        have hfirst := hbest first rfl
        have hold : old.directory.length ≤ deepest.directory.length := by omega
        exact ⟨by simpa using hold, List.forall_mem_cons.mpr ⟨hfirst, hrules⟩⟩

/-- A rule with a longer directory than all others is the one that is found, wherever it stands. -/
theorem foldl_deeper_eq_some {rules : List DirectoryRule} {rule : DirectoryRule}
    (hmem : rule ∈ rules)
    (hlt : ∀ other ∈ rules, other ≠ rule → other.directory.length < rule.directory.length) :
    rules.foldl deeper none = some rule := by
  cases hfold : rules.foldl deeper none with
  | none =>
    rw [(foldl_deeper_eq_none_iff.mp hfold).2] at hmem
    cases hmem
  | some deepest =>
    have hle := (length_le_of_foldl_deeper hfold).2 rule hmem
    have hdeepest : deepest ∈ rules :=
      (RuleTable.foldl_deeper_mem hfold).resolve_left (Option.some_ne_none _).symm
    by_contra hne
    have hless := hlt deepest hdeepest fun h ↦ hne (congrArg some h)
    omega

def normal (rule : DirectoryRule) : DirectoryRule :=
  { rule with directory := RuleTable.normalize rule.directory }

/-- A path belongs to a rule if it is the rule's directory in its normal form or lies under it. -/
def Owns (rule : DirectoryRule) (path : Text) : Prop :=
  path = RuleTable.normalize rule.directory ∨ RuleTable.normalize rule.directory ++ ['/'] <+: path

instance (rule : DirectoryRule) (path : Text) : Decidable (rule.Owns path) :=
  inferInstanceAs (Decidable (_ ∨ _))

/-- Of all rules that a path belongs to, the one whose directory is the longest in its normal
form. -/
structure Deepest (rules : List DirectoryRule) (path : Text) (rule : DirectoryRule) : Prop where
  mem : rule ∈ rules
  owns : rule.Owns path
  longest : ∀ other ∈ rules, other.Owns path → other ≠ rule →
    (RuleTable.normalize other.directory).length < (RuleTable.normalize rule.directory).length

theorem metadata_normal {rule : DirectoryRule} (h : RuleTable.normalize rule.directory ≠ []) :
    rule.normal.metadata =
      ⟨some (RuleTable.normalize rule.directory), rule.component, rule.usage, rule.notes⟩ := by
  rw [metadata, if_neg]
  · rfl
  · exact h

theorem covers_normal_iff {rule : DirectoryRule} {path : Text} :
    rule.normal.covers path = true ↔ rule.Owns path := covers_iff

theorem Deepest.unique {rules : List DirectoryRule} {path : Text} {a b : DirectoryRule}
    (ha : Deepest rules path a) (hb : Deepest rules path b) : a = b := by
  by_contra hne
  have hab := hb.longest a ha.mem ha.owns hne
  have hba := ha.longest b hb.mem hb.owns (Ne.symm hne)
  omega

theorem Deepest.of_perm {rules shuffled : List DirectoryRule} (h : shuffled.Perm rules)
    {path : Text} {rule : DirectoryRule} (hdeepest : Deepest rules path rule) :
    Deepest shuffled path rule where
  mem := h.mem_iff.mpr hdeepest.mem
  owns := hdeepest.owns
  longest other hother := hdeepest.longest other (h.mem_iff.mp hother)

/-- Where directories differ, none that a path belongs to is as long as the longest one. -/
theorem Deepest.of_length_le {rules : List DirectoryRule} {path : Text} {rule : DirectoryRule}
    (hnodup : (rules.map fun rule ↦ RuleTable.normalize rule.directory).Nodup) (hmem : rule ∈ rules)
    (howns : rule.Owns path)
    (hle : ∀ other ∈ rules, other.Owns path →
      (RuleTable.normalize other.directory).length ≤ (RuleTable.normalize rule.directory).length) :
    Deepest rules path rule := by
  refine ⟨hmem, howns, fun other hother hotherOwns hne ↦ ?_⟩
  refine lt_of_le_of_ne (hle other hother hotherOwns) fun hlength ↦ hne ?_
  have hdirectory := directory_eq_of_covers (covers_normal_iff.mpr hotherOwns)
    (covers_normal_iff.mpr howns) hlength
  exact List.inj_on_of_nodup_map hnodup hother hmem hdirectory

theorem exists_deepest {rules : List DirectoryRule}
    (hnodup : (rules.map fun rule ↦ RuleTable.normalize rule.directory).Nodup) {path : Text}
    (h : ∃ rule ∈ rules, rule.Owns path) : ∃ rule, Deepest rules path rule := by
  obtain ⟨owner, howner, howns⟩ := h
  let owners := rules.filter fun rule ↦ rule.Owns path
  have hmem : owner.normal ∈ owners.map normal :=
    List.mem_map_of_mem (List.mem_filter.mpr ⟨howner, by simpa using howns⟩)
  cases hfold : (owners.map normal).foldl deeper none with
  | none =>
    rw [(foldl_deeper_eq_none_iff.mp hfold).2] at hmem
    cases hmem
  | some deepest =>
    have hdeepest := (RuleTable.foldl_deeper_mem hfold).resolve_left (Option.some_ne_none _).symm
    obtain ⟨rule, hrule, rfl⟩ := List.mem_map.mp hdeepest
    obtain ⟨hrules, hrule⟩ := List.mem_filter.mp hrule
    have hrule : rule.Owns path := by simpa using hrule
    refine ⟨rule, .of_length_le hnodup hrules hrule ?_⟩
    intro other hother hotherOwns
    exact (length_le_of_foldl_deeper hfold).2 other.normal
      (List.mem_map_of_mem (List.mem_filter.mpr ⟨hother, by simpa using hotherOwns⟩))

end DirectoryRule

namespace RuleTable

open DirectoryRule

theorem normalizeFrom_cons_eq_ok_iff {seen : List (Text × Text)} {rule : DirectoryRule}
    {rules normals : List DirectoryRule} :
    normalizeFrom seen (rule :: rules) = .ok normals ↔
      normalize rule.directory ≠ [] ∧ seen.lookup (normalize rule.directory) = none ∧
        ∃ rest, normalizeFrom ((normalize rule.directory, rule.directory) :: seen) rules =
          .ok rest ∧ normals = rule.normal :: rest := by
  rw [normalizeFrom]
  by_cases hempty : normalize rule.directory = []
  · simp [hempty]
  · cases hseen : seen.lookup (normalize rule.directory) with
    | some first => simp [hempty]
    | none =>
      cases normalizeFrom ((normalize rule.directory, rule.directory) :: seen) rules with
      | error e => simp [hempty]
      | ok rest => simp [hempty, normal, eq_comm]

theorem exists_normalizeFrom_iff {seen : List (Text × Text)} {rules : List DirectoryRule} :
    (∃ normals, normalizeFrom seen rules = .ok normals) ↔
      (∀ rule ∈ rules, normalize rule.directory ≠ [] ∧
        seen.lookup (normalize rule.directory) = none) ∧
        (rules.map fun rule ↦ normalize rule.directory).Nodup := by
  induction rules generalizing seen with
  | nil => simp [normalizeFrom]
  | cons rule rules ih =>
    have hlookup (directory : Text) :
        ((normalize rule.directory, rule.directory) :: seen).lookup directory = none ↔
          directory ≠ normalize rule.directory ∧ seen.lookup directory = none := by
      rw [List.lookup_cons]
      by_cases heq : directory = normalize rule.directory
      · simp [heq]
      · have hbeq : (directory == normalize rule.directory) = false := by simpa using heq
        rw [hbeq]
        exact (and_iff_right heq).symm
    have hfresh : normalize rule.directory ∉ rules.map (fun rule ↦ normalize rule.directory) ↔
        ∀ other ∈ rules, normalize other.directory ≠ normalize rule.directory := by
      simp
    simp only [normalizeFrom_cons_eq_ok_iff, List.forall_mem_cons, List.map_cons, List.nodup_cons,
      hfresh]
    constructor
    · rintro ⟨normals, hempty, hseen, rest, hrest, -⟩
      obtain ⟨hall, hnodup⟩ := ih.mp ⟨rest, hrest⟩
      simp only [hlookup] at hall
      exact ⟨⟨⟨hempty, hseen⟩, fun other h ↦ ⟨(hall other h).1, (hall other h).2.2⟩⟩,
        fun other h ↦ (hall other h).2.1, hnodup⟩
    · rintro ⟨⟨⟨hempty, hseen⟩, hall⟩, hdifferent, hnodup⟩
      obtain ⟨rest, hrest⟩ := ih.mpr ⟨fun other h ↦ ⟨(hall other h).1,
        (hlookup _).mpr ⟨hdifferent other h, (hall other h).2⟩⟩, hnodup⟩
      exact ⟨_, hempty, hseen, rest, hrest, rfl⟩

theorem exists_ofRules_iff {rules : List DirectoryRule} {fallback : DirectoryRule} :
    (∃ table, ofRules rules fallback = .ok table) ↔
      (∀ rule ∈ rules, normalize rule.directory ≠ []) ∧
        (rules.map fun rule ↦ normalize rule.directory).Nodup := by
  have hfirst := @exists_normalizeFrom_iff [] rules
  simp only [List.lookup_nil, and_true] at hfirst
  rw [← hfirst, ofRules]
  cases normalizeFrom [] rules <;> simp [Except.map]

variable {rules : List DirectoryRule} {fallback : DirectoryRule} {table : RuleTable}

theorem resolve_of_deepest (h : ofRules rules fallback = .ok table) {path : Text}
    {rule : DirectoryRule} (hdeepest : Deepest rules (Text.dropLeadingPairs '.' '/' path) rule) :
    table.resolve path = rule.normal.metadata := by
  obtain ⟨hrules, -⟩ := ofRules_eq_ok h
  have hfold : (table.rules.filter (·.covers (Text.dropLeadingPairs '.' '/' path))).foldl deeper
      none = some rule.normal := by
    rw [hrules]
    refine foldl_deeper_eq_some (List.mem_filter.mpr
      ⟨List.mem_map_of_mem hdeepest.mem, covers_normal_iff.mpr hdeepest.owns⟩) ?_
    intro other hother hne
    obtain ⟨hmem, hcovers⟩ := List.mem_filter.mp hother
    obtain ⟨written, hwritten, rfl⟩ := List.mem_map.mp hmem
    exact hdeepest.longest written hwritten (covers_normal_iff.mp hcovers) fun heq ↦
      hne (congrArg normal heq)
  rw [resolve, hfold]
  rfl

theorem resolve_of_forall_not_owns (h : ofRules rules fallback = .ok table) {path : Text}
    (hnone : ∀ rule ∈ rules, ¬ rule.Owns (Text.dropLeadingPairs '.' '/' path)) :
    table.resolve path = ⟨none, fallback.component, fallback.usage, fallback.notes⟩ := by
  obtain ⟨hrules, hfallback⟩ := ofRules_eq_ok h
  have hfilter : table.rules.filter (·.covers (Text.dropLeadingPairs '.' '/' path)) = [] := by
    rw [hrules, List.filter_eq_nil_iff]
    intro rule hrule hcovers
    obtain ⟨written, hwritten, rfl⟩ := List.mem_map.mp hrule
    exact hnone written hwritten (covers_normal_iff.mp hcovers)
  rw [resolve, hfilter, hfallback]
  rfl

theorem exists_ofRules_perm (h : ofRules rules fallback = .ok table)
    {shuffled : List DirectoryRule} (hperm : shuffled.Perm rules) :
    ∃ other, ofRules shuffled fallback = .ok other ∧ ∀ path, other.resolve path =
      table.resolve path := by
  obtain ⟨hempty, hnodup⟩ := exists_ofRules_iff.mp ⟨table, h⟩
  have hshuffled : ∀ rule ∈ shuffled, normalize rule.directory ≠ [] := by
    intro rule hrule
    exact hempty rule (hperm.mem_iff.mp hrule)
  have hdirectories := hperm.map fun rule ↦ normalize rule.directory
  obtain ⟨other, hother⟩ := (@exists_ofRules_iff shuffled fallback).mpr
    ⟨hshuffled, hdirectories.nodup_iff.mpr hnodup⟩
  refine ⟨other, hother, fun path ↦ ?_⟩
  by_cases howned : ∃ rule ∈ rules, rule.Owns (Text.dropLeadingPairs '.' '/' path)
  · obtain ⟨rule, hdeepest⟩ := exists_deepest hnodup howned
    rw [resolve_of_deepest h hdeepest, resolve_of_deepest hother (hdeepest.of_perm hperm)]
  · push Not at howned
    rw [resolve_of_forall_not_owns h howned, resolve_of_forall_not_owns hother fun rule hrule ↦
      howned rule (hperm.mem_iff.mp hrule)]

/-- A path without its leading `./` steps is resolved to the rule with the longest directory that it
belongs to, of which there is one only, or else to the fallback rule. No order of the rules changes
that. -/
theorem resolve_deepest (h : ofRules rules fallback = .ok table) (path : Text) :
    let target := Text.dropLeadingPairs '.' '/' path
    (∃ n, path = (List.replicate n ['.', '/']).flatten ++ target ∧ ¬ ['.', '/'] <+: target) ∧
      (rules.map fun rule ↦ normalize rule.directory).Nodup ∧
      ((∀ rule ∈ rules, ¬ rule.Owns target) →
        table.resolve path = ⟨none, fallback.component, fallback.usage, fallback.notes⟩) ∧
      ((∃ rule ∈ rules, rule.Owns target) →
        ∃ rule, Deepest rules target rule ∧ (∀ other, Deepest rules target other → other = rule) ∧
          table.resolve path =
            ⟨some (normalize rule.directory), rule.component, rule.usage, rule.notes⟩) ∧
      ∀ shuffled, shuffled.Perm rules → ∃ other, ofRules shuffled fallback = .ok other ∧
        ∀ q, other.resolve q = table.resolve q := by
  intro target
  obtain ⟨hempty, hnodup⟩ := exists_ofRules_iff.mp ⟨table, h⟩
  refine ⟨Text.exists_eq_append_dropLeadingPairs '.' '/' path, hnodup,
    resolve_of_forall_not_owns h, ?_, fun shuffled hperm ↦ exists_ofRules_perm h hperm⟩
  intro howned
  obtain ⟨rule, hdeepest⟩ := exists_deepest hnodup howned
  have hdirectory : rule.normal.directory ≠ [] := hempty rule hdeepest.mem
  refine ⟨rule, hdeepest, fun other hother ↦ hother.unique hdeepest, ?_⟩
  rw [resolve_of_deepest h hdeepest, metadata, if_neg hdirectory]
  rfl

theorem resolve_deepest_of_nested :
    let rules : List DirectoryRule :=
      [ ⟨"./texel/".toList, "outer".toList, [], []⟩, ⟨"tex".toList, "partial".toList, [], []⟩,
        ⟨"texel\\theme".toList, "inner".toList, [], []⟩ ]
    let fallback := DirectoryRule.fallback "rest".toList [] []
    let path := "././texel/theme/load.go".toList
    ∃ table, ofRules rules fallback = .ok table ∧
      let target := Text.dropLeadingPairs '.' '/' path
      (∃ n, path = (List.replicate n ['.', '/']).flatten ++ target ∧ ¬ ['.', '/'] <+: target) ∧
        (rules.map fun rule ↦ normalize rule.directory).Nodup ∧
        ((∀ rule ∈ rules, ¬ rule.Owns target) →
          table.resolve path = ⟨none, fallback.component, fallback.usage, fallback.notes⟩) ∧
        ((∃ rule ∈ rules, rule.Owns target) →
          ∃ rule, Deepest rules target rule ∧ (∀ other, Deepest rules target other → other = rule) ∧
            table.resolve path =
              ⟨some (normalize rule.directory), rule.component, rule.usage, rule.notes⟩) ∧
        ∀ shuffled, shuffled.Perm rules → ∃ other, ofRules shuffled fallback = .ok other ∧
          ∀ q, other.resolve q = table.resolve q := by
  intro rules fallback path
  obtain ⟨table, h⟩ := (@exists_ofRules_iff rules fallback).mpr (by decide +kernel)
  exact ⟨table, h, resolve_deepest h path⟩

end RuleTable

end HeaderStamp
