import HeaderStamp.Proofs.Collector.Vendored
import HeaderStamp.Proofs.FileTree.Way

namespace HeaderStamp

namespace Collector

variable {collector : Collector} {machine : Machine} {root : Text} {extensions : List Text}

def Hides (name : Text) (pieces : List Text) : Prop := name ∈ pieces.flatMap (Text.split '\\')

instance (name : Text) (pieces : List Text) : Decidable (Hides name pieces) :=
  inferInstanceAs (Decidable (_ ∈ _))

theorem mem_dropLast_split_slashed_append {path name : Text} {front own : List Text}
    (hsplit : Text.split '/' path = front ++ own) (hown : own ≠ []) :
    name ∈ (Text.split '/' (slashed path)).dropLast ↔
      Hides name front ∨ name ∈ (own.flatMap (Text.split '\\')).dropLast := by
  have hne : own.flatMap (Text.split '\\') ≠ [] := by
    obtain ⟨piece, pieces, rfl⟩ := List.exists_cons_of_ne_nil hown
    exact List.append_ne_nil_of_left_ne_nil (Text.split_ne_nil '\\' piece) _
  rw [slashed, Text.split_replaceChar (by decide), hsplit, List.flatMap_append,
    List.dropLast_append_of_ne_nil hne, List.mem_append]
  rfl

theorem fileName?_of_getLast? {path name : Text} (hname : Path.IsName name)
    (h : (Text.split '/' path).getLast? = some name) : Path.fileName? path = some name := by
  have hlast : (Text.split '/' path).getLast (Text.split_ne_nil '/' path) = name := by
    rw [List.getLast?_eq_some_getLast (Text.split_ne_nil '/' path)] at h
    exact Option.some.inj h
  rw [Path.fileName?, Path.components_eq_append_getLast, hlast, hname.ofPiece?, Option.toList_some,
    List.getLast?_concat]

theorem hasExtension_congr {path other : Text} (h : Path.fileName? other = Path.fileName? path) :
    collector.hasExtension other = collector.hasExtension path := by
  rw [hasExtension, hasExtension, Path.extension?, Path.extension?, h]

/-- Two spellings of one file differ in what stands in front of it. -/
theorem isCandidate_eq_of_split (h : make root extensions [] = .ok collector)
    {path other name : Text} {front back own : List Text} (hname : Path.IsName name)
    (hlast : own.getLast? = some name) (hpath : Text.split '/' path = front ++ own)
    (hother : Text.split '/' other = back ++ own) (hfront : ¬ Hides vendor front)
    (hprinted : machine.relative other root = machine.relative path root) :
    collector.isCandidate machine other =
      (collector.isCandidate machine path && !decide (Hides vendor back)) := by
  have hown : own ≠ [] := by
    rintro rfl
    cases hlast
  have hfile : Path.fileName? other = Path.fileName? path := by
    rw [fileName?_of_getLast? hname, fileName?_of_getLast? hname]
    · rw [hpath, List.getLast?_append_of_ne_nil _ hown, hlast]
    · rw [hother, List.getLast?_append_of_ne_nil _ hown, hlast]
  have hignored : collector.isIgnored machine other =
      (collector.isIgnored machine path || decide (Hides vendor back)) := by
    rw [Bool.eq_iff_iff, Bool.or_eq_true, decide_eq_true_eq,
      isIgnored_iff (ignored_of_make_nil h), isIgnored_iff (ignored_of_make_nil h),
      root_of_make h, hprinted, mem_dropLast_split_slashed_append hpath hown,
      mem_dropLast_split_slashed_append hother hown]
    simp only [hfront, false_or]
    rw [or_assoc, or_comm (a := Hides vendor back)]
  rw [isCandidate_eq, isCandidate_eq, hasExtension_congr hfile, hignored, Bool.not_or,
    Bool.and_assoc]

theorem not_hides_nil (name : Text) : ¬ Hides name [] := List.not_mem_nil

theorem hides_nil_cons_iff {name : Text} (hname : name ≠ []) (pieces : List Text) :
    Hides name ([] :: pieces) ↔ Hides name pieces := by
  rw [Hides, List.flatMap_cons, List.mem_append, Text.split, List.mem_singleton,
    or_iff_right hname]
  rfl

theorem not_hides_climb (count : Nat) : ¬ Hides vendor (List.replicate count ['.', '.']) := by
  intro h
  obtain ⟨piece, hpiece, hmem⟩ := List.mem_flatMap.mp h
  rw [List.eq_of_mem_replicate hpiece] at hmem
  exact absurd hmem (by decide)

theorem hides_iff_mem {name : Text} {pieces : List Text} (h : ∀ piece ∈ pieces, '\\' ∉ piece) :
    Hides name pieces ↔ name ∈ pieces := by
  have hpieces : ∀ piece ∈ pieces, Text.split '\\' piece = [piece] :=
    fun piece hpiece ↦ Text.split_of_notMem (h piece hpiece)
  rw [Hides, List.flatMap_congr hpieces, List.flatMap_singleton']

theorem isCandidate_absolute (h : make root extensions [] = .ok collector)
    (hlawful : machine.Lawful) {path : Text} (hpath : Path.isAbsolute path = false)
    (hfile : machine.isFile path = true) :
    collector.isCandidate machine (machine.absolute path) =
      (collector.isCandidate machine path && !decide (Hides vendor machine.cwd)) := by
  obtain ⟨folder, name, hnames⟩ := hlawful.exists_names_of_isFile hfile
  have hprinted : machine.relative (machine.absolute path) root = machine.relative path root := by
    have hagain : machine.absolute (machine.absolute path) = machine.absolute path :=
      if_pos (Machine.isAbsolute_absolute machine path)
    rw [Machine.relative, hagain, ← Machine.relative]
  rw [isCandidate_eq_of_split h hnames.isName hnames.getLast?_split
    (List.nil_append (Text.split '/' path)).symm (hlawful.split_absolute hpath)
    (not_hides_nil vendor) hprinted]
  simp only [hides_nil_cons_iff isName_vendor.2.1]

section Located

variable {place base : Location} {node top : Node}

theorem isCandidate_locationText (h : make root extensions [] = .ok collector)
    (hlawful : machine.Lawful) (hat : machine.tree.at? place = some node)
    (hfile : machine.isFile (Machine.locationText place) = true) :
    collector.isCandidate machine (Machine.locationText place) =
      (collector.isCandidate machine
          (machine.relative (Machine.locationText place) machine.cwdText) &&
        !decide (Hides vendor (Path.shared machine.cwd place))) := by
  obtain ⟨climb, own, name, hname, hplace, hway, hprinted⟩ := hlawful.exists_way hat hfile
  have hne : place ≠ [] := by
    rw [hplace]
    simp
  have hsplit : Text.split '/' (Machine.locationText place) =
      ([] :: Path.shared machine.cwd place) ++ (own ++ [name]) := by
    rw [Path.split_locationText hne (hlawful.names hat), List.cons_append, ← hplace]
  rw [isCandidate_eq_of_split h hname (List.getLast?_concat ..) hway hsplit (not_hides_climb climb)
    (hprinted root).symm]
  simp only [hides_nil_cons_iff isName_vendor.2.1]

theorem isCandidate_way (h : make root extensions [] = .ok collector) (hlawful : machine.Lawful)
    (hat : machine.tree.at? place = some node)
    (hfile : machine.isFile (Machine.locationText place) = true)
    (hroot : machine.locate (machine.absolute root) = .ok (.present base top))
    (hcwd : base <+: machine.cwd) (hbase : base <+: place)
    (hplain : ∀ name ∈ place, '\\' ∉ name) :
    collector.isCandidate machine
        (machine.relative (Machine.locationText place) machine.cwdText) =
      (collector.hasExtension (Machine.locationText place) &&
        !decide (vendor ∈ (place.drop base.length).dropLast)) := by
  obtain ⟨climb, own, name, hname, hplace, hway, hprinted⟩ := hlawful.exists_way hat hfile
  obtain ⟨inner, hinner⟩ := Path.prefix_shared hcwd hbase
  rw [← hinner, List.append_assoc, ← List.append_assoc inner] at hplace
  generalize hpath : machine.relative (Machine.locationText place) machine.cwdText = path
    at hway hprinted
  have hnames := hlawful.names hat
  rw [hplace, List.forall_mem_append] at hplain hnames
  have hbelow : machine.relative path root = Text.join ['/'] (inner ++ own ++ [name]) := by
    rw [hprinted]
    subst hplace
    rw [← List.append_assoc] at hat ⊢
    exact hlawful.relative_eq_join hat hroot (List.append_assoc _ _ _)
  have hrelative : Text.split '/' (machine.relative path root) = inner ++ own ++ [name] := by
    rw [hbelow, Path.split_join_names (by simp) hnames.2]
  have hpieces : (own ++ [name]).flatMap (Text.split '\\') = own ++ [name] := by
    refine (List.flatMap_congr fun piece hpiece ↦ ?_).trans (List.flatMap_singleton' _)
    refine Text.split_of_notMem (hplain.2 piece ?_)
    rw [List.append_assoc]
    exact List.mem_append_right inner hpiece
  have hignored : collector.isIgnored machine path = decide (vendor ∈ inner ++ own) := by
    rw [Bool.eq_iff_iff, decide_eq_true_eq, isIgnored_iff (ignored_of_make_nil h),
      root_of_make h, hrelative, mem_dropLast_split_slashed_append hway (by simp), hpieces,
      List.dropLast_concat, List.dropLast_concat, List.mem_append]
    simp only [not_hides_climb, false_or]
    exact or_iff_left_of_imp .inr
  have hextension : collector.hasExtension path =
      collector.hasExtension (Machine.locationText place) := by
    refine hasExtension_congr ?_
    rw [fileName?_of_getLast? hname, fileName?_of_getLast? hname]
    · rw [hplace, Path.split_locationText (by simp) (List.forall_mem_append.mpr hnames),
        ← List.append_assoc, ← List.cons_append, List.getLast?_concat]
    · rw [hway, ← List.append_assoc, List.getLast?_concat]
  rw [isCandidate_eq, hextension, hignored, hplace, List.drop_left, List.dropLast_concat]

theorem isCandidate_located (h : make root extensions [] = .ok collector)
    (hlawful : machine.Lawful) (hat : machine.tree.at? place = some node)
    (hfile : machine.isFile (Machine.locationText place) = true)
    (hroot : machine.locate (machine.absolute root) = .ok (.present base top))
    (hcwd : base <+: machine.cwd) (hbase : base <+: place)
    (hplain : ∀ name ∈ place, '\\' ∉ name) :
    collector.isCandidate machine (Machine.locationText place) =
      (collector.isCandidate machine
          (machine.relative (Machine.locationText place) machine.cwdText) &&
        !decide (vendor ∈ base)) := by
  obtain ⟨climb, own, name, -, hplace, -, -⟩ := hlawful.exists_way hat hfile
  obtain ⟨inner, hinner⟩ := Path.prefix_shared hcwd hbase
  have hshared : ∀ piece ∈ Path.shared machine.cwd place, '\\' ∉ piece := by
    have hbegins : Path.shared machine.cwd place <+: place := ⟨own ++ [name], hplace.symm⟩
    exact fun piece hpiece ↦ hplain piece (hbegins.subset hpiece)
  have hhides : Hides vendor (Path.shared machine.cwd place) ↔ vendor ∈ base ∨ vendor ∈ inner := by
    rw [hides_iff_mem hshared, ← hinner, List.mem_append]
  rw [isCandidate_locationText h hlawful hat hfile]
  simp only [hhides]
  by_cases hmem : vendor ∈ inner
  · have hdrop : place.drop base.length = inner ++ own ++ [name] := by
      rw [hplace, ← hinner, List.append_assoc, List.drop_left, List.append_assoc]
    have hway : collector.isCandidate machine
        (machine.relative (Machine.locationText place) machine.cwdText) = false := by
      rw [isCandidate_way h hlawful hat hfile hroot hcwd hbase hplain, hdrop, List.dropLast_concat,
        decide_eq_true (List.mem_append_left own hmem), Bool.not_true, Bool.and_false]
    rw [hway, Bool.false_and, Bool.false_and]
  · simp only [hmem, or_false]

end Located

/-- An absolute and a relative spelling of a file get one answer but for the directories that only
the absolute one shows: those of the working directory where it is put in front, those that the two
locations share where the file is spelled by its own. If names have no backslashes and the root is
above both, it comes down to whether a directory at or above the root is called `vendor`, and that
is never held against the way from the working directory. -/
theorem isCandidate_spelling (h : make root extensions [] = .ok collector)
    (hlawful : machine.Lawful) :
    (∀ path, Path.isAbsolute path = false → machine.isFile path = true →
      collector.isCandidate machine (machine.absolute path) =
        (collector.isCandidate machine path && !decide (Hides vendor machine.cwd))) ∧
    ∀ place node, machine.tree.at? place = some node →
      machine.isFile (Machine.locationText place) = true →
      let absolute := Machine.locationText place
      let relative := machine.relative absolute machine.cwdText
      collector.isCandidate machine absolute =
        (collector.isCandidate machine relative &&
          !decide (Hides vendor (Path.shared machine.cwd place))) ∧
      ∀ base top, machine.locate (machine.absolute root) = .ok (.present base top) →
        base <+: machine.cwd → base <+: place → (∀ name ∈ place, '\\' ∉ name) →
        collector.isCandidate machine absolute =
          (collector.isCandidate machine relative && !decide (vendor ∈ base)) ∧
        collector.isCandidate machine relative =
          (collector.hasExtension absolute &&
            !decide (vendor ∈ (place.drop base.length).dropLast)) := by
  refine ⟨fun path hpath hfile ↦ isCandidate_absolute h hlawful hpath hfile, ?_⟩
  intro place node hat hfile absolute relative
  refine ⟨isCandidate_locationText h hlawful hat hfile, ?_⟩
  intro base top hroot hcwd hbase hplain
  exact ⟨isCandidate_located h hlawful hat hfile hroot hcwd hbase hplain,
    isCandidate_way h hlawful hat hfile hroot hcwd hbase hplain⟩

theorem isCandidate_spelling_of_vendored_project :
    let machine : Machine :=
      ⟨.folder vendor (.folder "p".toList (.folder "cmd".toList .empty
        (.folder "lib".toList (.file "a.go".toList [] .empty) .empty)) .empty) .empty,
        [vendor, "p".toList, "cmd".toList]⟩
    let root := "..".toList
    let collector : Collector := ⟨root, ["go".toList], [Glob.inFolder vendor]⟩
    let place := [vendor, "p".toList, "lib".toList, "a.go".toList]
    let path := "../lib/a.go".toList
    make root ["go".toList] [] = .ok collector ∧ machine.Lawful ∧
      machine.relative (Machine.locationText place) machine.cwdText = path ∧
      collector.isCandidate machine path = true ∧
      collector.isCandidate machine (machine.absolute path) = false ∧
      collector.isCandidate machine (Machine.locationText place) = false := by
  intro machine root collector place path
  have hmake : make root ["go".toList] [] = .ok collector := by decide +kernel
  have hlawful : machine.Lawful := ⟨by decide, .empty, rfl⟩
  obtain ⟨hjoined, hlocated⟩ := isCandidate_spelling hmake hlawful
  have hfile : machine.isFile (Machine.locationText place) = true := by decide +kernel
  obtain ⟨-, hbelow⟩ := hlocated place (.file []) rfl hfile
  obtain ⟨top, hroot⟩ : ∃ top, machine.locate (machine.absolute root) =
      .ok (.present [vendor, "p".toList] top) := ⟨_, rfl⟩
  obtain ⟨habsolute, hrelative⟩ := hbelow _ top hroot (by decide) (by decide) (by decide)
  have hway : machine.relative (Machine.locationText place) machine.cwdText = path := by
    decide +kernel
  rw [hway] at habsolute hrelative
  have hpath : collector.isCandidate machine path = true := by
    rw [hrelative]
    decide +kernel
  refine ⟨hmake, hlawful, hway, hpath, ?_, ?_⟩
  · rw [hjoined path (by decide) (by decide +kernel), hpath]
    decide
  · rw [habsolute, hpath]
    decide

/-- A project in a directory of that name is passed over if its files are spelled from the top. -/
theorem isCandidate_differs_below_vendor :
    let machine : Machine :=
      ⟨.folder vendor (.folder "p".toList (.file "a.go".toList [] .empty) .empty) .empty,
        [vendor, "p".toList]⟩
    let root := "/vendor/p".toList
    machine.Lawful ∧ machine.isFile "a.go".toList = true ∧
      machine.absolute "a.go".toList = "/vendor/p/a.go".toList ∧
      machine.relative "a.go".toList root = "a.go".toList ∧
      ∃ collector, make root ["go".toList] [] = .ok collector ∧
        collector.isCandidate machine "a.go".toList = true ∧
        collector.isCandidate machine "/vendor/p/a.go".toList = false := by
  intro machine root
  refine ⟨⟨by decide, .file "a.go".toList [] .empty, rfl⟩, by decide +kernel, by decide +kernel,
    by decide +kernel, ⟨root, ["go".toList], [Glob.inFolder vendor]⟩, ?_⟩
  decide +kernel

end Collector

end HeaderStamp
