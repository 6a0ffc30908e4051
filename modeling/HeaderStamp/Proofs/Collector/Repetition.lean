import HeaderStamp.Proofs.Collector.Vendored
import HeaderStamp.Proofs.FileTree.Walking

namespace HeaderStamp

namespace Collector

variable {collector : Collector} {machine : Machine} {patterns files : List Text}

theorem Expands.isFile {pattern path : Text} (h : Expands machine pattern path)
    (hlawful : machine.Lawful) : machine.isFile path = true := by
  have hholds : ∀ {source : Text}, Holds machine source path → machine.isFile path = true := by
    intro source hholds
    cases hholds with
    | file hfile => exact hfile
    | folder hfolder hwalk =>
      obtain ⟨inside, hnode⟩ := Machine.exists_node?_of_isFolder hfolder
      obtain ⟨place, hlocate⟩ := Machine.exists_locate_of_node? hnode
      rw [Machine.walk_eq hnode] at hwalk
      obtain ⟨below, hbelow, rfl⟩ := List.mem_map.mp hwalk
      exact (Machine.entryAt?_foldl_append hlawful hlocate hbelow).1
  cases h with
  | named hnamed => exact hholds hnamed
  | matched _ _ _ _ hmatched => exact hholds hmatched

/-- The patterns stand for this path, and it is not passed over. -/
def Accepts (collector : Collector) (machine : Machine) (patterns : List Text) (path : Text) :
    Prop :=
  collector.isCandidate machine path = true ∧ ∃ pattern ∈ patterns, Expands machine pattern path

theorem Accepts.exists_mem {path : Text} (h : collector.Accepts machine patterns path)
    (hlisting : Listing collector machine patterns files) :
    ∃ file ∈ files, Path.components file = Path.components path := by
  obtain ⟨hcandidate, pattern, hpattern, hexpands⟩ := h
  exact hlisting.kept pattern hpattern path hexpands hcandidate

/-- The collected files are printed apart from each other only if the patterns spell each directory
entry in one way, up to slashes and inner dots. A walk spells no entry twice. -/
theorem nodup_relative_iff (hlawful : machine.Lawful)
    (h : collector.collect machine patterns = .ok files) :
    ((files.map fun file ↦ machine.relative file collector.root).Nodup ↔
      ∀ p q, collector.Accepts machine patterns p → collector.Accepts machine patterns q →
        machine.entryAt? p = machine.entryAt? q → Path.components p = Path.components q) ∧
    ∀ folder,
      ((machine.walk folder).map fun file ↦ machine.relative file collector.root).Nodup := by
  have hlisting := listing_of_collect h
  have hfile : ∀ {path}, collector.Accepts machine patterns path → machine.isFile path = true :=
    fun ⟨_, _, _, hexpands⟩ ↦ hexpands.isFile hlawful
  refine ⟨⟨fun hnodup ↦ ?_, fun hspelling ↦ ?_⟩, fun folder ↦
    Machine.nodup_relative_walk hlawful folder collector.root⟩
  · intro p q hp hq hentry
    obtain ⟨first, hfirst, hfirstSame⟩ := hp.exists_mem hlisting
    obtain ⟨second, hsecond, hsecondSame⟩ := hq.exists_mem hlisting
    have hfirstFile := hfile (hlisting.found first hfirst)
    have hsecondFile := hfile (hlisting.found second hsecond)
    have hsame : first = second := by
      refine List.inj_on_of_nodup_map hnodup hfirst hsecond ?_
      rw [hlawful.relative_eq_iff hfirstFile hsecondFile,
        hlawful.entryAt?_eq_of_components_eq (hfile hp) hfirstFile hfirstSame, hentry,
        hlawful.entryAt?_eq_of_components_eq (hfile hq) hsecondFile hsecondSame]
    rw [← hfirstSame, ← hsecondSame, hsame]
  · rw [List.Nodup, List.pairwise_map]
    refine List.Pairwise.imp_of_mem ?_ hlisting.ordered
    intro p q hp hq hbefore hprinted
    have hp := hlisting.found p hp
    have hq := hlisting.found q hq
    rw [hlawful.relative_eq_iff (hfile hp) (hfile hq)] at hprinted
    exact hbefore.2 (hspelling p q hp hq hprinted)

theorem nodup_relative_of_doubled_slash :
    let machine : Machine :=
      ⟨.file "a.go".toList [] (.folder "d".toList (.file "b.go".toList [] .empty) .empty), []⟩
    let collector : Collector := ⟨"/".toList, ["go".toList], [Glob.inFolder vendor]⟩
    let patterns := ["a.go".toList, "d".toList, "d//b.go".toList]
    collector.collect machine patterns = .ok ["a.go".toList, "d/b.go".toList] ∧
      ∀ p q, collector.Accepts machine patterns p → collector.Accepts machine patterns q →
        machine.entryAt? p = machine.entryAt? q → Path.components p = Path.components q := by
  intro machine collector patterns
  have hlawful : machine.Lawful := ⟨by decide, machine.tree, rfl⟩
  have h : collector.collect machine patterns = .ok ["a.go".toList, "d/b.go".toList] := by
    have hgather : gather machine patterns =
        .ok ["a.go".toList, "d/b.go".toList, "d//b.go".toList] := by decide +kernel
    refine (collect_of_ordered hgather ?_).trans ?_ <;> decide +kernel
  have hnodup : (["a.go".toList, "d/b.go".toList].map fun file ↦
      machine.relative file collector.root).Nodup := by decide +kernel
  exact ⟨h, (nodup_relative_iff hlawful h).1.mp hnodup⟩

/-- A file found below `.` and named without the dot is collected twice. -/
theorem not_nodup_relative_of_dot :
    let machine : Machine := ⟨.file "a.go".toList [] .empty, []⟩
    let patterns := [".".toList, "a.go".toList]
    let files := ["./a.go".toList, "a.go".toList]
    machine.Lawful ∧ ∃ collector, make "/".toList ["go".toList] [] = .ok collector ∧
      collector.collect machine patterns = .ok files ∧
      ¬ (files.map fun file ↦ machine.relative file collector.root).Nodup := by
  intro machine patterns files
  let collector : Collector := ⟨"/".toList, ["go".toList], [Glob.inFolder vendor]⟩
  have h : collector.collect machine patterns = .ok files := by
    have hgather : gather machine patterns = .ok files := by decide +kernel
    refine (collect_of_ordered hgather ?_).trans ?_ <;> decide +kernel
  exact ⟨⟨by decide, machine.tree, rfl⟩, collector, by decide +kernel, h, by decide +kernel⟩

end Collector

end HeaderStamp
