import HeaderStamp.Proofs.Paths.Components
import HeaderStamp.Proofs.Rules.Resolution
import HeaderStamp.Proofs.Text.Utf8

namespace HeaderStamp

namespace Path

theorem slash_notMem_texts (path : Text) :
    ∀ name ∈ (stepsOf path).map Component.text, '/' ∉ name := by
  intro name hname
  obtain ⟨step, hstep, rfl⟩ := List.mem_map.mp hname
  exact (isStep_of_mem_stepsOf hstep).slash_notMem_text

theorem dropLeadingPairs_slash (path : Text) :
    Text.dropLeadingPairs '.' '/' (slash path) = slash path := by
  apply Text.dropLeadingPairs_of_not_prefix
  intro h
  have hdot : Text.split '/' ['.'] <+: Text.split '/' (slash path) :=
    Text.split_prefix_iff.mpr (.inr h)
  by_cases hnil : stepsOf path = []
  · rw [slash_eq, hnil] at h
    exact List.cons_ne_nil _ _ (List.prefix_nil.mp h)
  · rw [slash_eq, split_join_text hnil fun _ ↦ isStep_of_mem_stepsOf] at hdot
    obtain ⟨step, hstep, htext⟩ := List.mem_map.mp (hdot.subset List.mem_cons_self)
    have hpiece := (isStep_of_mem_stepsOf hstep).ofPiece?_text
    rw [htext] at hpiece
    cases hpiece

end Path

namespace RuleTable

open DirectoryRule

def ruleAt? (rules : List DirectoryRule) (directory : Text) : Option DirectoryRule :=
  rules.find? fun rule ↦ normalize rule.directory = directory

/-- The rule found on the way up, first with so many of the names, then with one less each time. -/
def climb? (rules : List DirectoryRule) (names : List Text) : Nat → Option DirectoryRule
  | 0 => none
  | depth + 1 =>
    (ruleAt? rules (Text.join ['/'] (names.take (depth + 1)))).or (climb? rules names depth)

variable {rules : List DirectoryRule} {rule other : DirectoryRule} {directory : Text}
  {names : List Text} {depth : Nat}

theorem ruleAt?_eq_none_iff :
    ruleAt? rules directory = none ↔ ∀ rule ∈ rules, normalize rule.directory ≠ directory := by
  simp [ruleAt?]

theorem of_ruleAt?_eq_some (h : ruleAt? rules directory = some rule) :
    rule ∈ rules ∧ normalize rule.directory = directory :=
  ⟨List.mem_of_find?_eq_some h, by simpa using List.find?_some h⟩

/-- A way up that finds nothing has passed no directory of a rule. -/
theorem ne_of_climb?_eq_none (h : climb? rules names depth = none) {k : Nat} (hpos : 0 < k)
    (hle : k ≤ depth) (hrule : rule ∈ rules) :
    normalize rule.directory ≠ Text.join ['/'] (names.take k) := by
  induction depth with
  | zero => omega
  | succ depth ih =>
    rw [climb?, Option.or_eq_none_iff, ruleAt?_eq_none_iff] at h
    by_cases hlast : k = depth + 1
    · rw [hlast]
      exact h.1 rule hrule
    · exact ih h.2 (by omega)

theorem exists_height_of_climb? (h : climb? rules names depth = some rule) :
    rule ∈ rules ∧ ∃ k, 0 < k ∧ k ≤ depth ∧
      normalize rule.directory = Text.join ['/'] (names.take k) ∧
      ∀ other ∈ rules, ∀ j, k < j → j ≤ depth →
        normalize other.directory ≠ Text.join ['/'] (names.take j) := by
  induction depth with
  | zero => cases h
  | succ depth ih =>
    rw [climb?] at h
    cases hfound : ruleAt? rules (Text.join ['/'] (names.take (depth + 1))) with
    | some found =>
      rw [hfound] at h
      cases h
      obtain ⟨hmem, hdirectory⟩ := of_ruleAt?_eq_some hfound
      refine ⟨hmem, depth + 1, by omega, le_rfl, hdirectory, ?_⟩
      intro other hother j hlt hle
      omega
    | none =>
      rw [hfound, Option.none_or] at h
      obtain ⟨hmem, k, hpos, hle, hdirectory, habove⟩ := ih h
      refine ⟨hmem, k, hpos, by omega, hdirectory, ?_⟩
      intro other hother j hlt hj
      by_cases hlast : j = depth + 1
      · rw [hlast]
        exact ruleAt?_eq_none_iff.mp hfound other hother
      · exact habove other hother j hlt (by omega)

theorem ne_nil_of_climb? (h : climb? rules names names.length = some rule) : names ≠ [] := by
  intro hnil
  rw [hnil] at h
  cases h

theorem owns_iff_split {path : Text} :
    rule.Owns path ↔ Text.split '/' (normalize rule.directory) <+: Text.split '/' path :=
  Text.split_prefix_iff.symm

theorem split_join_take (hnames : ∀ name ∈ names, '/' ∉ name) (hne : names ≠ []) {k : Nat}
    (hpos : 0 < k) : Text.split '/' (Text.join ['/'] (names.take k)) = names.take k := by
  apply Text.split_join_of_notMem
  · simp [hne]
    omega
  · intro name hname
    exact hnames name (List.mem_of_mem_take hname)

theorem owns_join_iff (hnames : ∀ name ∈ names, '/' ∉ name) (hne : names ≠ []) :
    rule.Owns (Text.join ['/'] names) ↔ ∃ k, 0 < k ∧ k ≤ names.length ∧
      normalize rule.directory = Text.join ['/'] (names.take k) := by
  rw [owns_iff_split, Text.split_join_of_notMem hne hnames]
  constructor
  · intro h
    have hpieces := Text.split_ne_nil '/' (normalize rule.directory)
    refine ⟨(Text.split '/' (normalize rule.directory)).length,
      List.length_pos_of_ne_nil hpieces, h.length_le, ?_⟩
    rw [← List.prefix_iff_eq_take.mp h, Text.join_split]
  · intro h
    obtain ⟨k, hpos, -, hdirectory⟩ := h
    rw [hdirectory, split_join_take hnames hne hpos]
    exact List.take_prefix k names

theorem length_lt_length_below (directory below : Text) :
    directory.length < (directory ++ '/' :: below).length := by
  simp

theorem length_encode_lt_below (directory below : Text) :
    (Utf8.encode directory).length < (Utf8.encode (directory ++ '/' :: below)).length := by
  have hslash : String.utf8EncodeChar '/' ≠ [] := by decide
  have hlength := List.length_pos_of_ne_nil hslash
  rw [Utf8.encode_append, List.length_append, Utf8.encode, Utf8.encode, List.flatMap_cons,
    List.length_append]
  omega

theorem deepest_of_climb? (hnodup : (rules.map fun rule ↦ normalize rule.directory).Nodup)
    (hnames : ∀ name ∈ names, '/' ∉ name) (h : climb? rules names names.length = some rule) :
    Deepest rules (Text.join ['/'] names) rule := by
  have hne := ne_nil_of_climb? h
  obtain ⟨hmem, k, hpos, hle, hdirectory, habove⟩ := exists_height_of_climb? h
  have howns := (owns_join_iff hnames hne).mpr ⟨k, hpos, hle, hdirectory⟩
  refine ⟨hmem, howns, ?_⟩
  intro other hother hotherOwns hdifferent
  obtain ⟨j, hjpos, hjle, hotherDirectory⟩ := (owns_join_iff hnames hne).mp hotherOwns
  have hj : j ≤ k := by
    by_contra hlt
    exact habove other hother j (by omega) hjle hotherDirectory
  have hjk : j ≠ k := by
    intro heq
    apply hdifferent
    apply List.inj_on_of_nodup_map hnodup hother hmem
    rw [hotherDirectory, hdirectory, heq]
  apply Text.size_lt_of_length_split_lt length_lt_length_below (owns_iff_split.mp hotherOwns)
    (owns_iff_split.mp howns)
  rw [hotherDirectory, hdirectory, split_join_take hnames hne hjpos,
    split_join_take hnames hne hpos, List.length_take, List.length_take]
  omega

theorem not_owns_nil (hrule : normalize rule.directory ≠ []) : ¬ rule.Owns [] := by
  intro h
  rcases h with hnil | hbelow
  · exact hrule hnil.symm
  · have hlength := hbelow.length_le
    simp at hlength

variable {fallback : DirectoryRule} {table : RuleTable}

theorem resolve_slash_eq (h : ofRules rules fallback = .ok table) (path : Text) :
    table.resolve (Path.slash path) =
      match climb? rules ((Path.stepsOf path).map Component.text) (Path.stepsOf path).length with
      | some rule => ⟨some (normalize rule.directory), rule.component, rule.usage, rule.notes⟩
      | none => ⟨none, fallback.component, fallback.usage, fallback.notes⟩ := by
  obtain ⟨hempty, hnodup⟩ := exists_ofRules_iff.mp ⟨table, h⟩
  have hnames := Path.slash_notMem_texts path
  have htarget : Text.dropLeadingPairs '.' '/' (Path.slash path) =
      Text.join ['/'] ((Path.stepsOf path).map Component.text) := by
    rw [Path.dropLeadingPairs_slash, Path.slash_eq]
  rw [← List.length_map Component.text]
  generalize (Path.stepsOf path).map Component.text = names at hnames htarget
  cases hclimb : climb? rules names names.length with
  | some rule =>
    have hdeepest := deepest_of_climb? hnodup hnames hclimb
    rw [← htarget] at hdeepest
    rw [resolve_of_deepest h hdeepest, metadata_normal (hempty rule hdeepest.mem)]
  | none =>
    apply resolve_of_forall_not_owns h
    intro rule hrule howns
    rw [htarget] at howns
    by_cases hnil : names = []
    · rw [hnil] at howns
      exact not_owns_nil (hempty rule hrule) howns
    · obtain ⟨k, hpos, hle, hdirectory⟩ := (owns_join_iff hnames hnil).mp howns
      exact ne_of_climb?_eq_none hclimb hpos hle hrule hdirectory

/-- A printed path gets the metadata of the first rule on its way up, where every directory is
looked up by its exact normal form, or else of the fallback rule. The directory that is found leads
the path name by name. Of two rules that the path belongs to, the one with the longer directory, in
characters or in bytes, is the one with more names in it. -/
theorem resolve_slash (h : ofRules rules fallback = .ok table) (path : Text) :
    let names := (Path.stepsOf path).map Component.text
    let target := Path.slash path
    (table.resolve target =
      match climb? rules names names.length with
      | some rule => ⟨some (normalize rule.directory), rule.component, rule.usage, rule.notes⟩
      | none => ⟨none, fallback.component, fallback.usage, fallback.notes⟩) ∧
    (∀ directory, (table.resolve target).directory? = some directory →
      Text.split '/' directory <+: names) ∧
    ∀ first second : DirectoryRule, first.Owns target → second.Owns target →
      let upper := normalize first.directory
      let lower := normalize second.directory
      (upper.length < lower.length ↔
        (Text.split '/' upper).length < (Text.split '/' lower).length) ∧
      ((Utf8.encode upper).length < (Utf8.encode lower).length ↔
        (Text.split '/' upper).length < (Text.split '/' lower).length) := by
  intro names target
  have hresolve := resolve_slash_eq h path
  rw [← List.length_map Component.text] at hresolve
  refine ⟨hresolve, ?_, ?_⟩
  · intro directory hdirectory
    rw [hresolve] at hdirectory
    cases hclimb : climb? rules names names.length with
    | none =>
      rw [hclimb] at hdirectory
      cases hdirectory
    | some rule =>
      rw [hclimb] at hdirectory
      cases hdirectory
      obtain ⟨-, k, hpos, hle, hdirectory, -⟩ := exists_height_of_climb? hclimb
      rw [hdirectory, split_join_take (Path.slash_notMem_texts path) (ne_nil_of_climb? hclimb) hpos]
      exact List.take_prefix k names
  · intro first second hfirst hsecond upper lower
    have hupper := owns_iff_split.mp hfirst
    have hlower := owns_iff_split.mp hsecond
    have hcharacters := @Text.size_lt_iff '/' List.length upper lower target
    have hbytes := @Text.size_lt_iff '/' (fun t ↦ (Utf8.encode t).length) upper lower target
    exact ⟨hcharacters length_lt_length_below hupper hlower,
      hbytes length_encode_lt_below hupper hlower⟩

/-- A directory with `..` in it is found from a path with slashes and dots to spare. Neither the one
beside it, whose name begins alike, nor the one with a doubled slash is on the way. -/
theorem resolve_slash_of_dotted_spelling :
    let rules : List DirectoryRule :=
      [ ⟨"texel/".toList, "outer".toList, [], []⟩,
        ⟨"texel\\..\\lib".toList, "inner".toList, [], []⟩,
        ⟨"texel/../li".toList, "beside".toList, [], []⟩,
        ⟨"texel//..".toList, "doubled".toList, [], []⟩ ]
    let fallback := DirectoryRule.fallback "rest".toList [] []
    let path := "./texel//../lib/./a.go/".toList
    ∃ table, ofRules rules fallback = .ok table ∧
      Path.slash path = "texel/../lib/a.go".toList ∧
      table.resolve (Path.slash path) =
        ⟨some "texel/../lib".toList, "inner".toList, [], []⟩ ∧
      Text.split '/' "texel/../lib".toList <+: (Path.stepsOf path).map Component.text := by
  intro rules fallback path
  obtain ⟨table, h⟩ := (@exists_ofRules_iff rules fallback).mpr (by decide +kernel)
  obtain ⟨hresolve, hleads, -⟩ := resolve_slash h path
  have hclimb : climb? rules ((Path.stepsOf path).map Component.text)
      ((Path.stepsOf path).map Component.text).length =
        some ⟨"texel\\..\\lib".toList, "inner".toList, [], []⟩ := by
    decide +kernel
  have hnormal : normalize "texel\\..\\lib".toList = "texel/../lib".toList := by decide +kernel
  have hfound : table.resolve (Path.slash path) =
      ⟨some "texel/../lib".toList, "inner".toList, [], []⟩ := by
    rw [hresolve, hclimb]
    dsimp only
    rw [hnormal]
  have hdirectory : (table.resolve (Path.slash path)).directory? = some "texel/../lib".toList := by
    rw [hfound]
  exact ⟨table, h, by decide +kernel, hfound, hleads _ hdirectory⟩

end RuleTable

end HeaderStamp
