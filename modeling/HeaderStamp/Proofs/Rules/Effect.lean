import HeaderStamp.Proofs.Rules.Resolution
import Mathlib.Data.List.DropRight

namespace HeaderStamp

theorem Text.dropLeadingPairs_flatten_append {a b : Char} {t : Text} (h : ¬ [a, b] <+: t)
    (n : Nat) : dropLeadingPairs a b ((List.replicate n [a, b]).flatten ++ t) = t := by
  induction n with
  | zero => exact dropLeadingPairs_of_not_prefix h
  | succ n ih =>
    rw [List.replicate_succ, List.flatten_cons, List.append_assoc, List.cons_append,
      List.singleton_append, dropLeadingPairs, if_pos ⟨rfl, rfl⟩, ih]

namespace RuleTable

open DirectoryRule

def turned (directory : Text) : Text := Text.replaceChar '\\' ['/'] (Text.trim directory)

/-- The directory is `.` or begins with it. No path is looked up in such a form. -/
def Dotted (directory : Text) : Prop := ['.', '/'] <+: directory ++ ['/']

instance (directory : Text) : Decidable (Dotted directory) := inferInstanceAs (Decidable (_ <+: _))

theorem dotted_iff {directory : Text} :
    Dotted directory ↔ directory = ['.'] ∨ ['.', '/'] <+: directory := by
  rw [Dotted]
  match directory with
  | [] => simp
  | [c] => simp [eq_comm]
  | c :: d :: rest => simp

theorem normalize_eq (directory : Text) :
    normalize directory =
      ((Text.dropLeadingPairs '.' '/' (turned directory)).dropWhile (· = '/')).rdropWhile
        (· = '/') := rfl

theorem exists_turned_eq (directory : Text) :
    ∃ steps slashes rest, turned directory = (List.replicate steps ['.', '/']).flatten ++
        (List.replicate slashes '/' ++ (normalize directory ++ rest)) ∧
      ¬ ['.', '/'] <+: List.replicate slashes '/' ++ (normalize directory ++ rest) := by
  obtain ⟨steps, hsteps, hend⟩ := Text.exists_eq_append_dropLeadingPairs '.' '/' (turned directory)
  generalize hinner : Text.dropLeadingPairs '.' '/' (turned directory) = inner at hsteps hend
  obtain ⟨rest, hrest⟩ := List.rdropWhile_prefix (· = '/') (inner.dropWhile (· = '/'))
  have hnormal : (inner.dropWhile (· = '/')).rdropWhile (· = '/') = normalize directory := by
    rw [normalize_eq, hinner]
  have hslashes : inner.takeWhile (· = '/') =
      List.replicate (inner.takeWhile (· = '/')).length '/' := by
    apply List.eq_replicate_of_mem
    intro c hc
    simpa using List.mem_takeWhile_imp hc
  have hparts : inner = List.replicate (inner.takeWhile (· = '/')).length '/' ++
      (normalize directory ++ rest) := by
    rw [← hslashes, ← hnormal, hrest, List.takeWhile_append_dropWhile]
  rw [hparts] at hsteps hend
  exact ⟨steps, _, rest, hsteps, hend⟩

theorem getLast?_normalize_ne (directory : Text) : (normalize directory).getLast? ≠ some '/' := by
  intro h
  rw [normalize_eq] at h
  generalize (Text.dropLeadingPairs '.' '/' (turned directory)).dropWhile (· = '/') = inner at h
  have hne : inner.rdropWhile (· = '/') ≠ [] := by
    intro hnil
    rw [hnil] at h
    cases h
  rw [List.getLast?_eq_some_getLast hne, Option.some.injEq] at h
  exact List.rdropWhile_last_not (· = '/') inner hne (by simpa using h)

theorem dotted_of_prefix {directory rest : Text} (hne : directory ≠ [])
    (h : directory <+: ['.', '/'] ++ rest) : Dotted directory := by
  obtain ⟨ending, hending⟩ := h
  rw [dotted_iff]
  match directory with
  | [] => exact absurd rfl hne
  | [c] =>
    obtain rfl : c = '.' := List.head_eq_of_cons_eq hending
    exact .inl rfl
  | c :: d :: more =>
    obtain rfl : c = '.' := List.head_eq_of_cons_eq hending
    obtain rfl : d = '/' := List.head_eq_of_cons_eq (List.tail_eq_of_cons_eq hending)
    exact .inr (List.prefix_append ['.', '/'] more)

theorem dotted_normalize {directory rest : Text} {steps slashes : Nat}
    (hturned : turned directory = (List.replicate steps ['.', '/']).flatten ++
      (List.replicate (slashes + 1) '/' ++ (['.', '/'] ++ rest))) :
    Dotted (normalize directory) := by
  have hnormal : normalize directory = (['.', '/'] ++ rest).rdropWhile (· = '/') := by
    rw [normalize_eq, hturned,
      Text.dropLeadingPairs_flatten_append (by simp [List.replicate_succ]),
      List.dropWhile_append_of_pos (by simp)]
    rfl
  rw [hnormal]
  refine dotted_of_prefix (fun hnil ↦ ?_) (List.rdropWhile_prefix _ _)
  have hslash := List.rdropWhile_eq_nil_iff.mp hnil '.' List.mem_cons_self
  cases hslash

/-- Only a dot behind a slash is left over in front, and `.` itself. -/
theorem dotted_normalize_iff (directory : Text) :
    Dotted (normalize directory) ↔ normalize directory = ['.'] ∨
      ∃ steps slashes rest, turned directory = (List.replicate steps ['.', '/']).flatten ++
        (List.replicate (slashes + 1) '/' ++ (['.', '/'] ++ rest)) := by
  constructor
  · intro h
    rcases dotted_iff.mp h with hdot | hbegins
    · exact .inl hdot
    · right
      obtain ⟨steps, slashes, ending, hturned, hend⟩ := exists_turned_eq directory
      obtain ⟨rest, hrest⟩ := hbegins
      cases slashes with
      | zero =>
        rw [← hrest] at hend
        exact absurd (by simp) hend
      | succ slashes =>
        refine ⟨steps, slashes, rest ++ ending, ?_⟩
        rw [hturned, ← hrest, List.append_assoc]
  · rintro (hdot | ⟨steps, slashes, rest, hturned⟩)
    · exact dotted_iff.mpr (.inl hdot)
    · exact dotted_normalize hturned

variable {rules : List DirectoryRule} {fallback rule : DirectoryRule} {table : RuleTable}
  {directory path : Text}

theorem lookup_eq_self (h : ¬ Dotted directory) :
    Text.dropLeadingPairs '.' '/' directory = directory := by
  apply Text.dropLeadingPairs_of_not_prefix
  intro hdot
  exact h (dotted_iff.mpr (.inr hdot))

theorem lookup_below_eq_self (h : ¬ Dotted directory) (hne : directory ≠ [])
    (hbelow : directory ++ ['/'] <+: path) : Text.dropLeadingPairs '.' '/' path = path := by
  apply Text.dropLeadingPairs_of_not_prefix
  intro hdot
  have hlength := List.length_pos_of_ne_nil hne
  apply h
  apply List.prefix_of_prefix_length_le hdot hbelow
  simp
  omega

/-- A rule is in effect if its metadata is found for its own directory, and for every path below it
that belongs to no rule with a longer directory. -/
structure InEffect (table : RuleTable) (rules : List DirectoryRule) (rule : DirectoryRule) :
    Prop where
  own : table.resolve (normalize rule.directory) = rule.normal.metadata
  below : ∀ path, normalize rule.directory ++ ['/'] <+: path →
    (∀ other ∈ rules, other.Owns path →
      (normalize other.directory).length ≤ (normalize rule.directory).length) →
    table.resolve path = rule.normal.metadata

theorem exists_owner_of_resolve (h : ofRules rules fallback = .ok table)
    (hfound : (table.resolve path).directory? = some directory) :
    ∃ rule ∈ rules, normalize rule.directory = directory ∧
      rule.Owns (Text.dropLeadingPairs '.' '/' path) := by
  obtain ⟨hempty, hnodup⟩ := exists_ofRules_iff.mp ⟨table, h⟩
  by_cases howned : ∃ rule ∈ rules, rule.Owns (Text.dropLeadingPairs '.' '/' path)
  · obtain ⟨rule, hdeepest⟩ := exists_deepest hnodup howned
    rw [resolve_of_deepest h hdeepest, metadata_normal (hempty rule hdeepest.mem)] at hfound
    exact ⟨rule, hdeepest.mem, Option.some.inj hfound, hdeepest.owns⟩
  · push Not at howned
    rw [resolve_of_forall_not_owns h howned] at hfound
    cases hfound

theorem eq_dot_of_resolve (h : ofRules rules fallback = .ok table) (hdotted : Dotted directory)
    (hfound : (table.resolve path).directory? = some directory) :
    directory = ['.'] ∧ Text.dropLeadingPairs '.' '/' path = ['.'] := by
  obtain ⟨-, -, hend⟩ := Text.exists_eq_append_dropLeadingPairs '.' '/' path
  obtain ⟨rule, -, rfl, howns⟩ := exists_owner_of_resolve h hfound
  rcases howns with heq | hbelow
  · rw [heq] at hend ⊢
    have hdot := (dotted_iff.mp hdotted).resolve_right hend
    exact ⟨hdot, hdot⟩
  · exact absurd (hdotted.trans hbelow) hend

theorem inEffect_of_not_dotted (h : ofRules rules fallback = .ok table) (hrule : rule ∈ rules)
    (hdotted : ¬ Dotted (normalize rule.directory)) : InEffect table rules rule := by
  obtain ⟨hempty, hnodup⟩ := exists_ofRules_iff.mp ⟨table, h⟩
  constructor
  · apply resolve_of_deepest h
    rw [lookup_eq_self hdotted]
    apply Deepest.of_length_le hnodup hrule (.inl rfl)
    intro other hother howns
    exact (directory_prefix_of_covers (covers_normal_iff.mpr howns)).length_le
  · intro path hbelow hlongest
    apply resolve_of_deepest h
    rw [lookup_below_eq_self hdotted (hempty rule hrule) hbelow]
    exact .of_length_le hnodup hrule (.inr hbelow) hlongest

theorem not_inEffect_of_dotted (h : ofRules rules fallback = .ok table) (hrule : rule ∈ rules)
    (hdotted : Dotted (normalize rule.directory)) : ¬ InEffect table rules rule := by
  obtain ⟨hempty, -⟩ := exists_ofRules_iff.mp ⟨table, h⟩
  have hmetadata : rule.normal.metadata.directory? = some (normalize rule.directory) := by
    rw [metadata_normal (hempty rule hrule)]
  intro heffect
  have hdot : normalize rule.directory = ['.'] := by
    apply (@eq_dot_of_resolve rules fallback table _ (normalize rule.directory) h hdotted ?_).1
    rw [heffect.own, hmetadata]
  -- `.` answers for itself, but not for what is below it
  have hslash : table.resolve ['.', '/'] = rule.normal.metadata := by
    apply heffect.below
    · rw [hdot]
      exact List.prefix_rfl
    · intro other hother howns
      rw [hdot]
      rcases howns with heq | hbelow
      · have hlast := getLast?_normalize_ne other.directory
        rw [← heq] at hlast
        exact absurd rfl hlast
      · simpa using hbelow.length_le
  rw [← hslash] at hmetadata
  obtain ⟨-, hlookup⟩ := eq_dot_of_resolve h hdotted hmetadata
  cases hlookup

/-- A rule of an accepted table is in effect unless its normal form is dotted, which is found for no
path, or for `.` alone. Normal forms are dotted where a dot stands behind a slash in front, as in
`/./texel`, and of `.` itself; whatever blanks, backslashes, `./` steps and slashes surround a
directory otherwise are of no account. -/
theorem inEffect_iff (h : ofRules rules fallback = .ok table) (hrule : rule ∈ rules) :
    (InEffect table rules rule ↔ ¬ Dotted (normalize rule.directory)) ∧
      (Dotted (normalize rule.directory) → ∀ path,
        (table.resolve path).directory? = some (normalize rule.directory) →
          normalize rule.directory = ['.'] ∧ Text.dropLeadingPairs '.' '/' path = ['.']) ∧
      (Dotted (normalize rule.directory) ↔ normalize rule.directory = ['.'] ∨
        ∃ steps slashes rest, turned rule.directory = (List.replicate steps ['.', '/']).flatten ++
          (List.replicate (slashes + 1) '/' ++ (['.', '/'] ++ rest))) := by
  refine ⟨⟨fun heffect hdotted ↦ ?_, inEffect_of_not_dotted h hrule⟩, ?_,
    dotted_normalize_iff rule.directory⟩
  · exact not_inEffect_of_dotted h hrule hdotted heffect
  · intro hdotted path hfound
    exact eq_dot_of_resolve h hdotted hfound

theorem inEffect_iff_of_blanks_and_backslashes :
    let rule : DirectoryRule := ⟨" .\\.\\texel\\theme/ ".toList, "inner".toList, [], []⟩
    let rules := [⟨"texel".toList, "outer".toList, [], []⟩, rule]
    let fallback := DirectoryRule.fallback "rest".toList [] []
    ∃ table, ofRules rules fallback = .ok table ∧ rule ∈ rules ∧
      normalize rule.directory = "texel/theme".toList ∧ InEffect table rules rule := by
  intro rule rules fallback
  obtain ⟨table, h⟩ := (@exists_ofRules_iff rules fallback).mpr (by decide +kernel)
  have hrule : rule ∈ rules := List.mem_cons_of_mem _ (List.mem_singleton_self rule)
  have hdotted : ¬ Dotted (normalize rule.directory) := by decide +kernel
  exact ⟨table, h, hrule, by decide +kernel, (inEffect_iff h hrule).1.mpr hdotted⟩

/-- An accepted rule that no path finds, not even its own directory. -/
theorem not_inEffect_of_dot_behind_slash :
    let rule : DirectoryRule := ⟨"/./texel".toList, "theme".toList, "u".toList, "n".toList⟩
    let fallback := DirectoryRule.fallback "rest".toList "d".toList "m".toList
    ∃ table, ofRules [rule] fallback = .ok table ∧
      normalize rule.directory = "./texel".toList ∧
      table.resolve "./texel".toList = ⟨none, "rest".toList, "d".toList, "m".toList⟩ ∧
      table.resolve "./texel/pane.go".toList = ⟨none, "rest".toList, "d".toList, "m".toList⟩ ∧
      ¬ ∀ rule ∈ [rule], InEffect table [rule] rule := by
  intro rule fallback
  have hnormal : normalize rule.directory = "./texel".toList := by decide +kernel
  let table : RuleTable := ⟨[rule.normal], fallback⟩
  have h : ofRules [rule] fallback = .ok table := by decide +kernel
  have hown : table.resolve "./texel".toList =
      ⟨none, "rest".toList, "d".toList, "m".toList⟩ := by
    decide +kernel
  refine ⟨table, h, hnormal, hown, by decide +kernel, fun hall ↦ ?_⟩
  have heffect := (hall rule (List.mem_singleton_self rule)).own
  rw [hnormal, hown] at heffect
  have hdirectory := congrArg Metadata.directory? heffect
  revert hdirectory
  decide +kernel

end RuleTable

end HeaderStamp
