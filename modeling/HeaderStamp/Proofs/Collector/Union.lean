import HeaderStamp.Collector
import HeaderStamp.Proofs.Glob.Patterns
import HeaderStamp.Proofs.Paths.Order

namespace HeaderStamp

theorem Machine.isFile_eq_false_of_isFolder {machine : Machine} {path : Text}
    (h : machine.isFolder path = true) : machine.isFile path = false := by
  rw [isFolder] at h
  rw [isFile]
  cases hnode : machine.node? path with
  | none => rfl
  | some node =>
    rw [hnode] at h
    cases node with
    | folder inside => rfl
    | file bytes => cases h
    | link target => cases h

namespace Collector

theorem dropRepeated_sublist (paths : List Text) : (dropRepeated paths).Sublist paths := by
  induction paths with
  | nil => exact .slnil
  | cons path rest ih =>
    rw [dropRepeated]
    split
    · exact List.singleton_sublist.mpr List.mem_cons_self
    · rename_i next more hnext
      rw [hnext] at ih
      split
      · exact (List.sublist_of_cons_sublist ih).cons_cons path
      · exact ih.cons_cons path

theorem exists_mem_dropRepeated {paths : List Text} {path : Text} (h : path ∈ paths) :
    ∃ kept ∈ dropRepeated paths, Path.components kept = Path.components path := by
  induction paths with
  | nil => cases h
  | cons first rest ih =>
    rw [dropRepeated]
    rcases List.mem_cons.mp h with rfl | h
    · split
      · exact ⟨_, List.mem_cons_self, rfl⟩
      · split <;> exact ⟨_, List.mem_cons_self, rfl⟩
    · obtain ⟨kept, hkept, hsame⟩ := ih h
      split
      · rename_i hnil
        rw [hnil] at hkept
        cases hkept
      · rename_i next more hnext
        rw [hnext] at hkept
        split
        · rename_i heq
          rcases List.mem_cons.mp hkept with rfl | hkept
          · exact ⟨first, List.mem_cons_self, heq.trans hsame⟩
          · exact ⟨kept, List.mem_cons_of_mem _ hkept, hsame⟩
        · exact ⟨kept, List.mem_cons_of_mem _ hkept, hsame⟩

theorem pairwise_before_dropRepeated {paths : List Text}
    (h : paths.Pairwise fun p q ↦ Path.le p q = true) :
    (dropRepeated paths).Pairwise Path.Before := by
  induction paths with
  | nil => exact .nil
  | cons path rest ih =>
    obtain ⟨hpath, hrest⟩ := List.pairwise_cons.mp h
    have hle : ∀ q ∈ dropRepeated rest, Path.le path q = true := fun q hq ↦
      hpath q ((dropRepeated_sublist rest).mem hq)
    have ih := ih hrest
    rw [dropRepeated]
    split
    · exact List.pairwise_singleton _ _
    · rename_i next more hnext
      rw [hnext] at ih hle
      obtain ⟨hbefore, hmore⟩ := List.pairwise_cons.mp ih
      have hnextLe := hle next List.mem_cons_self
      have hpathBefore : ∀ q ∈ more, Path.Before path q := fun q hq ↦
        (hbefore q hq).of_le hnextLe
      split
      · exact List.pairwise_cons.mpr ⟨hpathBefore, hmore⟩
      · rename_i hne
        refine List.pairwise_cons.mpr ⟨fun q hq ↦ ?_, ih⟩
        rcases List.mem_cons.mp hq with rfl | hq
        · exact ⟨hnextLe, hne⟩
        · exact hpathBefore q hq

theorem pairwise_before_arrange (paths : List Text) : (arrange paths).Pairwise Path.Before :=
  pairwise_before_dropRepeated (List.pairwise_mergeSort Path.le_trans Path.le_total paths)

theorem mem_of_mem_arrange {paths : List Text} {path : Text} (h : path ∈ arrange paths) :
    path ∈ paths :=
  List.mem_mergeSort.mp ((dropRepeated_sublist _).mem h)

theorem exists_mem_arrange {paths : List Text} {path : Text} (h : path ∈ paths) :
    ∃ kept ∈ arrange paths, Path.components kept = Path.components path :=
  exists_mem_dropRepeated (List.mem_mergeSort.mpr h)

/-- The files that an existing path stands for: a file for itself, a directory for what a walk
through it finds. -/
inductive Holds (machine : Machine) : Text → Text → Prop
  | file {path : Text} : machine.isFile path = true → Holds machine path path
  | folder {folder path : Text} :
      machine.isFolder folder = true → path ∈ machine.walk folder → Holds machine folder path

/-- The files that a pattern stands for: as a path if there is something at it, else by what it
matches. -/
inductive Expands (machine : Machine) (pattern path : Text) : Prop
  | named : Holds machine pattern path → Expands machine pattern path
  | matched {found : List Text} {source : Text} :
      machine.isFile pattern = false → machine.isFolder pattern = false →
      Glob.expand machine pattern = .ok found → source ∈ found → Holds machine source path →
      Expands machine pattern path

section Expansion

variable {machine : Machine} {pattern path : Text}

theorem exists_sourceAt_iff {source : Text} :
    (∃ s, sourceAt machine source = some s ∧ path ∈ filesOf machine s) ↔
      Holds machine source path := by
  constructor
  · rintro ⟨s, hs, hpath⟩
    rw [sourceAt] at hs
    split at hs
    · rename_i hfile
      cases hs
      rw [filesOf, List.mem_singleton] at hpath
      subst hpath
      exact .file hfile
    · split at hs
      · rename_i hfolder
        cases hs
        exact .folder hfolder hpath
      · cases hs
  · intro h
    cases h with
    | file hfile => exact ⟨.file _, by rw [sourceAt, if_pos hfile], List.mem_singleton_self _⟩
    | folder hfolder hwalk =>
      have hfile := Machine.isFile_eq_false_of_isFolder hfolder
      exact ⟨.folder _, by rw [sourceAt, hfile, hfolder]; rfl, hwalk⟩

theorem sourceAt_eq_none_iff :
    sourceAt machine pattern = none ↔
      machine.isFile pattern = false ∧ machine.isFolder pattern = false := by
  rw [sourceAt]
  cases machine.isFile pattern <;> cases machine.isFolder pattern <;> simp

theorem expands_iff_of_sourceAt {s : Source} (hat : sourceAt machine pattern = some s) :
    Expands machine pattern path ↔ path ∈ filesOf machine s := by
  have hholds : Holds machine pattern path ↔ path ∈ filesOf machine s := by
    rw [← exists_sourceAt_iff, hat]
    simp
  rw [← hholds]
  constructor
  · intro h
    cases h with
    | named h => exact h
    | matched hfile hfolder _ _ _ =>
      rw [sourceAt_eq_none_iff.mpr ⟨hfile, hfolder⟩] at hat
      cases hat
  · exact .named

theorem expands_iff_of_expand {hits : List Text} (hat : sourceAt machine pattern = none)
    (hexpand : Glob.expand machine pattern = .ok hits) :
    Expands machine pattern path ↔ ∃ source ∈ hits, Holds machine source path := by
  obtain ⟨hfile, hfolder⟩ := sourceAt_eq_none_iff.mp hat
  constructor
  · intro h
    cases h with
    | named hholds =>
      obtain ⟨s, hs, -⟩ := exists_sourceAt_iff.mpr hholds
      rw [hat] at hs
      cases hs
    | matched _ _ hfound hsource hholds =>
      rw [hexpand] at hfound
      cases hfound
      exact ⟨_, hsource, hholds⟩
  · rintro ⟨source, hsource, hholds⟩
    exact .matched hfile hfolder hexpand hsource hholds

theorem exists_sources_iff {found : List Source} (h : sources machine pattern = .ok found) :
    (∃ s ∈ found, path ∈ filesOf machine s) ↔ Expands machine pattern path := by
  rw [sources] at h
  cases hat : sourceAt machine pattern with
  | some s =>
    rw [hat] at h
    cases h
    rw [expands_iff_of_sourceAt hat]
    simp
  | none =>
    rw [hat] at h
    cases hexpand : Glob.expand machine pattern with
    | error e =>
      rw [hexpand] at h
      cases h
    | ok hits =>
      rw [hexpand] at h
      cases h
      simp only [expands_iff_of_expand hat hexpand, ← exists_sourceAt_iff, List.mem_filterMap]
      constructor
      · rintro ⟨s, ⟨source, hsource, hs⟩, hpath⟩
        exact ⟨source, hsource, s, hs, hpath⟩
      · rintro ⟨source, hsource, s, hs, hpath⟩
        exact ⟨s, ⟨source, hsource, hs⟩, hpath⟩

theorem exists_sources_error_iff :
    (∃ e, sources machine pattern = .error e) ↔
      machine.isFile pattern = false ∧ machine.isFolder pattern = false ∧ ¬ Glob.Valid pattern := by
  rw [← and_assoc, ← sourceAt_eq_none_iff, ← Glob.exists_expand_iff machine, sources]
  cases sourceAt machine pattern with
  | some s => simp
  | none => cases Glob.expand machine pattern <;> simp

end Expansion

section Collect

variable {collector : Collector} {machine : Machine} {patterns files : List Text}

theorem mem_gather_iff {paths : List Text} (h : gather machine patterns = .ok paths)
    (path : Text) : path ∈ paths ↔ ∃ pattern ∈ patterns, Expands machine pattern path := by
  obtain ⟨found, hfound, rfl⟩ := map_eq_ok_iff.mp h
  simp only [List.mem_flatMap, List.mem_flatten]
  constructor
  · rintro ⟨s, ⟨some, hsome, hs⟩, hpath⟩
    obtain ⟨pattern, hpattern, hsources⟩ := exists_mem_of_mapM_ok hfound hsome
    exact ⟨pattern, hpattern, (exists_sources_iff hsources).mp ⟨s, hs, hpath⟩⟩
  · rintro ⟨pattern, hpattern, hexpands⟩
    obtain ⟨some, hsome, hsources⟩ := exists_ok_of_mapM_ok hfound hpattern
    obtain ⟨s, hs, hpath⟩ := (exists_sources_iff hsources).mpr hexpands
    exact ⟨s, ⟨some, hsome, hs⟩, hpath⟩

theorem exists_gather_of_collect (h : collector.collect machine patterns = .ok files) :
    ∃ paths, gather machine patterns = .ok paths ∧
      files = arrange (paths.filter (collector.isCandidate machine)) := by
  obtain ⟨paths, hpaths, hfiles⟩ := map_eq_ok_iff.mp h
  exact ⟨paths, hpaths, hfiles.symm⟩

theorem collect_of_ordered {paths : List Text} (h : gather machine patterns = .ok paths)
    (hordered : (paths.filter (collector.isCandidate machine)).Pairwise
      fun p q ↦ Path.le p q = true) :
    collector.collect machine patterns =
      .ok (dropRepeated (paths.filter (collector.isCandidate machine))) := by
  rw [collect, h, Except.map, arrange, List.mergeSort_of_pairwise hordered]

theorem exists_collect_error_iff :
    (∃ e, collector.collect machine patterns = .error e) ↔
      ∃ pattern ∈ patterns, machine.isFile pattern = false ∧
        machine.isFolder pattern = false ∧ ¬ Glob.Valid pattern := by
  simp only [← exists_sources_error_iff, ← mapM_error_iff, collect, gather]
  cases patterns.mapM (sources machine) with
  | error e => exact iff_of_true ⟨e, rfl⟩ ⟨e, rfl⟩
  | ok found =>
    refine iff_of_false ?_ ?_ <;>
      · rintro ⟨e, he⟩
        cases he

/-- The collected files are those that the patterns stand for, less the ones passed over. -/
structure Listing (collector : Collector) (machine : Machine) (patterns files : List Text) :
    Prop where
  ordered : files.Pairwise Path.Before
  found : ∀ file ∈ files,
    collector.isCandidate machine file = true ∧ ∃ pattern ∈ patterns, Expands machine pattern file
  kept : ∀ pattern ∈ patterns, ∀ path, Expands machine pattern path →
    collector.isCandidate machine path = true →
      ∃ file ∈ files, Path.components file = Path.components path

theorem listing_of_collect (h : collector.collect machine patterns = .ok files) :
    Listing collector machine patterns files := by
  obtain ⟨paths, hpaths, rfl⟩ := exists_gather_of_collect h
  refine ⟨pairwise_before_arrange _, ?_, ?_⟩
  · intro file hfile
    obtain ⟨hmem, hcandidate⟩ := List.mem_filter.mp (mem_of_mem_arrange hfile)
    exact ⟨hcandidate, (mem_gather_iff hpaths file).mp hmem⟩
  · intro pattern hpattern path hexpands hcandidate
    have hmem := (mem_gather_iff hpaths path).mpr ⟨pattern, hpattern, hexpands⟩
    exact exists_mem_arrange (List.mem_filter.mpr ⟨hmem, hcandidate⟩)

theorem Listing.exists_mem_iff (h : Listing collector machine patterns files)
    (steps : List Component) :
    (∃ file ∈ files, Path.components file = steps) ↔
      ∃ pattern ∈ patterns, ∃ path, Expands machine pattern path ∧
        collector.isCandidate machine path = true ∧ Path.components path = steps := by
  constructor
  · rintro ⟨file, hfile, hsteps⟩
    obtain ⟨hcandidate, pattern, hpattern, hexpands⟩ := h.found file hfile
    exact ⟨pattern, hpattern, file, hexpands, hcandidate, hsteps⟩
  · rintro ⟨pattern, hpattern, path, hexpands, hcandidate, rfl⟩
    exact h.kept pattern hpattern path hexpands hcandidate

/-- Which patterns there are decides on the files, up to their spelling. -/
theorem Listing.map_components_eq {others more : List Text}
    (h : Listing collector machine patterns files) (hmore : Listing collector machine others more)
    (hsame : ∀ pattern, pattern ∈ others ↔ pattern ∈ patterns) :
    more.map Path.components = files.map Path.components := by
  refine Path.map_components_eq_of_before hmore.ordered h.ordered fun steps ↦ ?_
  rw [List.mem_map, List.mem_map, hmore.exists_mem_iff, h.exists_mem_iff]
  simp only [hsame]

/-- The collected files are the union of what the patterns stand for, in strict order, and there
are none only if a pattern that names nothing cannot be looked up. -/
theorem collect_union (collector : Collector) (machine : Machine) (patterns : List Text) :
    (∀ files, collector.collect machine patterns = .ok files →
      files.Pairwise Path.Before ∧
      (∀ path, (∃ file ∈ files, Path.components file = Path.components path) ↔
        ∃ pattern ∈ patterns, ∃ found, Expands machine pattern found ∧
          collector.isCandidate machine found = true ∧
          Path.components found = Path.components path) ∧
      (∀ others : List Text, (∀ pattern, pattern ∈ others ↔ pattern ∈ patterns) →
        ∃ more, collector.collect machine others = .ok more ∧
          more.map Path.components = files.map Path.components)) ∧
    ((∃ e, collector.collect machine patterns = .error e) ↔
      ∃ pattern ∈ patterns, machine.isFile pattern = false ∧
        machine.isFolder pattern = false ∧ ¬ Glob.Valid pattern) := by
  refine ⟨fun files h ↦ ?_, exists_collect_error_iff⟩
  have hlisting := listing_of_collect h
  refine ⟨hlisting.ordered, fun path ↦ hlisting.exists_mem_iff _, fun others hsame ↦ ?_⟩
  cases hothers : collector.collect machine others with
  | error e =>
    obtain ⟨pattern, hpattern, hbad⟩ := exists_collect_error_iff.mp ⟨e, hothers⟩
    have hrefused : ∃ e, collector.collect machine patterns = .error e :=
      exists_collect_error_iff.mpr ⟨pattern, (hsame pattern).mp hpattern, hbad⟩
    obtain ⟨e, he⟩ := hrefused
    rw [h] at he
    cases he
  | ok more => exact ⟨more, rfl, hlisting.map_components_eq (listing_of_collect hothers) hsame⟩

theorem collect_union_of_overlapping :
    let machine : Machine :=
      ⟨.file "a.go".toList [] (.folder "d".toList
        (.file "c.txt".toList [] (.file "b.go".toList [] .empty)) .empty), []⟩
    let collector : Collector := ⟨"/".toList, ["go".toList], []⟩
    let patterns := ["./a.go".toList, "a.go".toList, "d".toList, "d//b.go".toList]
    let files := ["./a.go".toList, "a.go".toList, "d/b.go".toList]
    collector.collect machine patterns = .ok files ∧ files.Pairwise Path.Before ∧
      (∃ pattern ∈ patterns, ∃ found, Expands machine pattern found ∧
        collector.isCandidate machine found = true ∧
        Path.components found = Path.components "d///b.go".toList) ∧
      ∃ more, collector.collect machine patterns.reverse = .ok more ∧
        more.map Path.components = files.map Path.components := by
  intro machine collector patterns files
  have h : collector.collect machine patterns = .ok files := by
    have hgather : gather machine patterns = .ok ["./a.go".toList, "a.go".toList,
        "d/c.txt".toList, "d/b.go".toList, "d//b.go".toList] := by decide +kernel
    refine (collect_of_ordered hgather ?_).trans ?_ <;> decide +kernel
  obtain ⟨hunion, -⟩ := collect_union collector machine patterns
  obtain ⟨hordered, hmem, hsame⟩ := hunion files h
  refine ⟨h, hordered, (hmem _).mp ⟨"d/b.go".toList, by decide, by decide +kernel⟩, ?_⟩
  exact hsame patterns.reverse fun pattern ↦ List.mem_reverse

end Collect

end Collector

end HeaderStamp
