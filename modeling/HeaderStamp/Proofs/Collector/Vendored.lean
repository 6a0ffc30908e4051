import HeaderStamp.Proofs.Collector.Union
import HeaderStamp.Proofs.Paths.Components

namespace HeaderStamp

namespace Collector

def vendor : Text := "vendor".toList

theorem isName_vendor : Path.IsName vendor := by decide

theorem parse_builtin : Glob.parse "**/vendor/**".toList = .ok (Glob.inFolder vendor) := by
  decide +kernel

section Make

variable {root : Text} {extensions ignore : List Text} {collector : Collector}

theorem root_of_make (h : make root extensions ignore = .ok collector) : collector.root = root := by
  obtain ⟨ignored, -, rfl⟩ := map_eq_ok_iff.mp h
  rfl

theorem inFolder_mem_of_make (h : make root extensions ignore = .ok collector) :
    Glob.inFolder vendor ∈ collector.ignored := by
  obtain ⟨ignored, hignored, rfl⟩ := map_eq_ok_iff.mp h
  have hbuiltin : "**/vendor/**".toList ∈ builtinIgnores ++ ignore :=
    List.mem_append_left _ List.mem_cons_self
  obtain ⟨pattern, hmem, hpattern⟩ := exists_ok_of_mapM_ok hignored hbuiltin
  rw [ignorePattern, parse_builtin] at hpattern
  cases hpattern
  exact hmem

theorem ignored_of_make_nil (h : make root extensions [] = .ok collector) :
    collector.ignored = [Glob.inFolder vendor] := by
  obtain ⟨ignored, hignored, rfl⟩ := map_eq_ok_iff.mp h
  rw [List.append_nil, builtinIgnores, List.mapM_cons, List.mapM_nil, ignorePattern,
    parse_builtin] at hignored
  cases hignored
  rfl

end Make

def slashed (path : Text) : Text := Text.replaceChar '\\' ['/'] path

theorem mem_dropLast_split_slashed_iff (name path : Text) :
    name ∈ (Text.split '/' (slashed path)).dropLast ↔
      name ∈ (Text.split '/' path).dropLast.flatMap (Text.split '\\') ∨
        name ∈ (Text.split '\\'
          ((Text.split '/' path).getLast (Text.split_ne_nil '/' path))).dropLast := by
  have hcut := List.dropLast_append_getLast (Text.split_ne_nil '/' path)
  rw [slashed, Text.split_replaceChar (by decide)]
  conv_lhs => rw [← hcut]
  rw [List.flatMap_append, List.flatMap_singleton,
    List.dropLast_append_of_ne_nil (Text.split_ne_nil '\\' _), List.mem_append]

theorem mem_dropLast_split_slashed {name path : Text} (hname : '\\' ∉ name)
    (h : name ∈ (Text.split '/' path).dropLast) :
    name ∈ (Text.split '/' (slashed path)).dropLast := by
  refine (mem_dropLast_split_slashed_iff name path).mpr (.inl ?_)
  exact List.mem_flatMap.mpr ⟨name, h, by rw [Text.split_of_notMem hname]; exact List.mem_cons_self⟩

section Reach

variable {collector : Collector} {machine : Machine} {path : Text}

theorem isIgnored_of_mem {pattern : Glob.Pattern} (hmem : pattern ∈ collector.ignored)
    (h : Glob.accepts pattern (machine.relative path collector.root) = true ∨
      Glob.accepts pattern (slashed path) = true) : collector.isIgnored machine path = true := by
  rw [isIgnored]
  refine List.any_eq_true.mpr ⟨pattern, hmem, ?_⟩
  rwa [Bool.or_eq_true]

theorem isCandidate_eq (collector : Collector) (machine : Machine) (path : Text) :
    collector.isCandidate machine path =
      (collector.hasExtension path && !collector.isIgnored machine path) := by
  rw [isCandidate, verdict]
  cases collector.hasExtension path <;> cases collector.isIgnored machine path <;> rfl

theorem isCandidate_eq_false_of_isIgnored (h : collector.isIgnored machine path = true) :
    collector.isCandidate machine path = false := by
  rw [isCandidate_eq, h, Bool.not_true, Bool.and_false]

theorem isIgnored_iff (h : collector.ignored = [Glob.inFolder vendor]) :
    collector.isIgnored machine path = true ↔
      vendor ∈ (Text.split '/' (machine.relative path collector.root)).dropLast ∨
        vendor ∈ (Text.split '/' (slashed path)).dropLast := by
  rw [isIgnored, h]
  simp only [List.any_cons, List.any_nil, Bool.or_false, Bool.or_eq_true,
    Glob.accepts_inFolder_iff isName_vendor.1]
  rfl

theorem goesThrough_relative_iff (machine : Machine) (path root : Text) :
    Path.GoesThrough vendor (machine.relative path root) ↔
      vendor ∈ (Text.split '/' (machine.relative path root)).dropLast :=
  Path.goesThrough_slash_iff isName_vendor

/-- A path as it is told apart by its components: it has no backslashes and ends in a step. -/
structure Plain (path : Text) : Prop where
  no_backslash : '\\' ∉ path
  no_trailing_slash : path.getLast? ≠ some '/'
  no_dot : ['.'] ∉ Text.split '/' path

theorem Plain.goesThrough_iff (h : Plain path) :
    Path.GoesThrough vendor path ↔ vendor ∈ (Text.split '/' (slashed path)).dropLast := by
  rw [slashed, Text.replaceChar_of_notMem h.no_backslash]
  by_cases hempty : path = []
  · subst hempty
    decide
  · refine Path.goesThrough_iff isName_vendor fun hlast ↦ ?_
    rcases Path.ofPiece?_eq_none_iff.mp hlast with hnil | hdot
    · rcases (Text.getLast_split_eq_nil_iff '/' path).mp hnil with h' | hslash
      · exact hempty h'
      · exact h.no_trailing_slash hslash
    · exact h.no_dot (hdot ▸ List.getLast_mem _)

end Reach

section Reach

variable {root : Text} {extensions ignore : List Text} {collector : Collector} {machine : Machine}

theorem isCandidate_eq_false_of_goesThrough (h : make root extensions ignore = .ok collector)
    {path : Text}
    (hvendor : Path.GoesThrough vendor path ∨
      Path.GoesThrough vendor (machine.relative path root)) :
    collector.isCandidate machine path = false := by
  refine isCandidate_eq_false_of_isIgnored (isIgnored_of_mem (inFolder_mem_of_make h) ?_)
  rw [root_of_make h, Glob.accepts_inFolder_iff isName_vendor.1,
    Glob.accepts_inFolder_iff isName_vendor.1]
  rcases hvendor with hpath | hrelative
  · refine .inr (mem_dropLast_split_slashed (by decide) ?_)
    exact Path.mem_dropLast_split_of_goesThrough isName_vendor hpath
  · exact .inl (Path.mem_dropLast_split_of_goesThrough isName_vendor hrelative)

/-- Whatever is asked for, no file in a vendored directory is taken, and a collector without
patterns of its own passes over nothing else. -/
theorem vendored_out_of_reach (h : make root extensions ignore = .ok collector)
    (machine : Machine) :
    (∀ path, Path.GoesThrough vendor path ∨
        Path.GoesThrough vendor (machine.relative path root) →
      collector.isCandidate machine path = false) ∧
    (∀ patterns files, collector.collect machine patterns = .ok files → ∀ file ∈ files,
      ¬ Path.GoesThrough vendor file ∧ ¬ Path.GoesThrough vendor (machine.relative file root)) ∧
    (∀ bare, make root extensions [] = .ok bare → ∀ path, Plain path →
      ¬ Path.GoesThrough vendor path → ¬ Path.GoesThrough vendor (machine.relative path root) →
        bare.isIgnored machine path = false) := by
  refine ⟨fun path ↦ isCandidate_eq_false_of_goesThrough h, ?_, ?_⟩
  · intro patterns files hfiles file hfile
    rw [← not_or]
    intro hvendor
    have hcandidate := ((listing_of_collect hfiles).found file hfile).1
    rw [isCandidate_eq_false_of_goesThrough h hvendor] at hcandidate
    cases hcandidate
  · intro bare hbare path hplain hpath hrelative
    rw [← Bool.not_eq_true, isIgnored_iff (ignored_of_make_nil hbare), root_of_make hbare,
      ← goesThrough_relative_iff, ← hplain.goesThrough_iff]
    exact not_or.mpr ⟨hrelative, hpath⟩

theorem vendored_out_of_reach_of_link :
    let machine : Machine :=
      ⟨.folder "vendor".toList (.folder "lib".toList (.file "a.go".toList [] .empty) .empty)
        (.link "lib".toList "vendor/lib".toList
          (.folder "xvendor".toList (.file "vendor".toList [] .empty) .empty)), []⟩
    let root := "/".toList
    let collector : Collector :=
      ⟨root, ["go".toList], [Glob.inFolder vendor, [.anyRun, .char '.', .char 'm', .char 'd']]⟩
    let bare : Collector := ⟨root, ["go".toList], [Glob.inFolder vendor]⟩
    make root [".GO".toList] ["*.md".toList] = .ok collector ∧
      make root [".GO".toList] [] = .ok bare ∧
      ¬ Path.GoesThrough vendor "lib/a.go".toList ∧
      Path.GoesThrough vendor (machine.relative "lib/a.go".toList root) ∧
      collector.isCandidate machine "lib/a.go".toList = false ∧
      collector.collect machine ["lib/a.go".toList] = .ok [] ∧
      Plain "xvendor/vendor".toList ∧
      ¬ Path.GoesThrough vendor (machine.relative "xvendor/vendor".toList root) ∧
      bare.isIgnored machine "xvendor/vendor".toList = false := by
  intro machine root collector bare
  have hmake : make root [".GO".toList] ["*.md".toList] = .ok collector := by decide +kernel
  have hbare : make root [".GO".toList] [] = .ok bare := by decide +kernel
  obtain ⟨hreach, -, hspared⟩ := vendored_out_of_reach hmake machine
  have hlink : Path.GoesThrough vendor (machine.relative "lib/a.go".toList root) := by
    decide +kernel
  have hplain : Plain "xvendor/vendor".toList := ⟨by decide, by decide, by decide⟩
  have hgiven : ¬ Path.GoesThrough vendor "xvendor/vendor".toList := by decide
  have hprinted : ¬ Path.GoesThrough vendor (machine.relative "xvendor/vendor".toList root) := by
    decide +kernel
  exact ⟨hmake, hbare, by decide, hlink, hreach _ (.inr hlink), by decide +kernel, hplain,
    hprinted, hspared bare hbare _ hplain hgiven hprinted⟩

end Reach

end Collector

end HeaderStamp
