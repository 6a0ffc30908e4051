import HeaderStamp.Proofs.FileTree.Upkeep
import HeaderStamp.Proofs.FileTree.Way

namespace HeaderStamp

namespace Path

def turn (here : Location) (piece : Text) : Location :=
  if piece = ['.', '.'] then here.dropLast else here ++ [piece]

/-- Where a printed path leads from a location, its pieces taken one after the other. -/
def followed (base : Location) (printed : Text) : Location :=
  (Text.split '/' printed).foldl turn base

theorem foldl_turn_climb (here aside : Location) :
    (List.replicate aside.length ['.', '.']).foldl turn (here ++ aside) = here := by
  induction aside using List.reverseRecOn with
  | nil => exact List.append_nil here
  | append_singleton aside last ih =>
    have hturn : turn (here ++ (aside ++ [last])) ['.', '.'] = here ++ aside := by
      rw [turn, if_pos rfl, ← List.append_assoc, List.dropLast_concat]
    rw [List.length_append, List.length_singleton, List.replicate_succ, List.foldl_cons, hturn]
    exact ih

theorem foldl_turn_names {names : Location} (hnames : ∀ name ∈ names, IsName name)
    (here : Location) : names.foldl turn here = here ++ names := by
  induction names generalizing here with
  | nil => exact (List.append_nil here).symm
  | cons name names ih =>
    obtain ⟨hname, hrest⟩ := List.forall_mem_cons.mp hnames
    rw [List.foldl_cons, turn, if_neg hname.2.2.2, ih hrest, List.append_assoc,
      List.singleton_append]

end Path

namespace Machine

open HeaderStamp.Path

variable {machine : Machine} {path root name : Text} {base folder : Location} {top : Folder}

/-- Two spellings with one resolved directory and one file name are printed alike. -/
theorem Lawful.relative_congr (h : machine.Lawful) {other parent : Text}
    (hname : fileName? path = some name) (hother : fileName? other = some name)
    (hparent : machine.canonical? (machine.parentText path) = some parent)
    (hsame : machine.canonical? (machine.parentText other) = some parent) (root : Text) :
    machine.relative other root = machine.relative path root := by
  rw [relative_eq_of_parent (h.fileName?_absolute hother) hsame,
    relative_eq_of_parent (h.fileName?_absolute hname) hparent]

theorem Names.not_prefix_of_isFile (h : machine.Names path folder name)
    (hbase : machine.tree.at? base = some (.folder top)) (hfile : machine.isFile path = true) :
    ¬ folder ++ [name] <+: base := by
  intro hprefix
  obtain ⟨outer, houter⟩ := Folder.exists_folder_of_prefix hprefix hbase
  obtain ⟨place, bytes, hlocate⟩ := isFile_iff.mp hfile
  rw [h.locate houter fun _ ↦ Node.noConfusion] at hlocate
  cases hlocate

/-- From the resolved root, the pieces of the printed path lead to the entry of the file: its
resolved directory with its name behind. All `..` pieces come first, every other one is a name.
A machine that works in the root finds the entry there, and no other spelling of the directory
changes what is printed. -/
theorem relative_leads_back (hlawful : machine.Lawful)
    (hroot : machine.locate root = .ok (.present base (.folder top)))
    (hfile : machine.isFile path = true) :
    ∃ folder name, machine.canonical? (machine.parentText path) = some (locationText folder) ∧
      fileName? path = some name ∧ machine.entryAt? path = some (folder ++ [name]) ∧
      followed base (machine.relative path root) = folder ++ [name] ∧
      (machine.enter root).entryAt? (machine.relative path root) = some (folder ++ [name]) ∧
      (∃ climb own, Text.split '/' (machine.relative path root) =
        List.replicate climb ['.', '.'] ++ own ∧ ∀ piece ∈ own, IsName piece) ∧
      ∀ other, machine.canonical? (machine.parentText other) =
          machine.canonical? (machine.parentText path) →
        fileName? other = fileName? path →
          machine.relative other root = machine.relative path root := by
  obtain ⟨folder, name, hnamed⟩ := hlawful.exists_names_of_isFile hfile
  obtain ⟨inside, node, hfolder, hfind⟩ := hnamed.entry
  have hat : machine.tree.at? (folder ++ [name]) = some node := by
    rw [Folder.at?_concat hfolder, hfind]
  obtain ⟨-, hbase, -⟩ := locate_eq_present_iff.mp hroot
  have hrootText : machine.base root = locationText base :=
    base_eq (hlawful.locate_absolute hroot)
  obtain ⟨aside, own, hparts, hplace, hprinted⟩ :=
    hlawful.exists_climb hnamed hrootText (hlawful.names hbase)
      (hnamed.not_prefix_of_isFile hbase hfile)
  generalize shared base (folder ++ [name]) = here at hparts hplace
  have hown : ∀ piece ∈ own ++ [name], IsName piece := by
    intro piece hpiece
    apply hlawful.names hat
    rw [hplace, List.append_assoc]
    exact List.mem_append_right here hpiece
  have hsplit : Text.split '/' (machine.relative path root) =
      List.replicate aside.length ['.', '.'] ++ (own ++ [name]) := by
    rw [hprinted, split_climb aside.length (by simp) hown]
  have hparent := hnamed.canonical?_parentText hlawful
  refine ⟨folder, name, hparent, hnamed.fileName?_eq, hnamed.entryAt?, ?_, ?_,
    ⟨aside.length, own ++ [name], hsplit, hown⟩, ?_⟩
  · rw [followed, hsplit, List.foldl_append, hparts, foldl_turn_climb, foldl_turn_names hown,
      hplace, List.append_assoc]
  · have henter : machine.enter root = ⟨machine.tree, base⟩ := by rw [enter, hroot]
    have hinside := hlawful.enter root
    rw [henter] at hinside ⊢
    rw [hplace] at hat
    rw [hprinted, hplace]
    exact (hinside.names_way hparts hat).entryAt?
  · intro other hsame hname
    rw [hparent] at hsame
    rw [hnamed.fileName?_eq] at hname
    exact hlawful.relative_congr hnamed.fileName?_eq hname hparent hsame root

theorem relative_leads_back_of_linked_spelling :
    let project : Folder := .folder "cmd".toList (.file "a.go".toList [] .empty) .empty
    let machine : Machine :=
      ⟨.folder "work".toList (.folder "proj".toList project
        (.folder "lib".toList (.file "b.go".toList [] .empty)
          (.link "way".toList "proj/cmd".toList .empty))) .empty,
        ["work".toList, "lib".toList]⟩
    let root := "../way/..".toList
    machine.Lawful ∧
      machine.locate root = .ok (.present ["work".toList, "proj".toList] (.folder project)) ∧
      machine.isFile "../way/./a.go".toList = true ∧ machine.isFile "b.go".toList = true ∧
      machine.relative "../way/./a.go".toList root = "cmd/a.go".toList ∧
      machine.relative "/work/proj//cmd/a.go".toList root = "cmd/a.go".toList ∧
      machine.relative "b.go".toList root = "../lib/b.go".toList ∧
      ∃ folder name, machine.canonical? (machine.parentText "b.go".toList) =
          some (locationText folder) ∧ fileName? "b.go".toList = some name ∧
        followed ["work".toList, "proj".toList] "../lib/b.go".toList = folder ++ [name] := by
  intro project machine root
  have hlawful : machine.Lawful := ⟨by decide, .file "b.go".toList [] .empty, by decide +kernel⟩
  have hroot : machine.locate root =
      .ok (.present ["work".toList, "proj".toList] (.folder project)) := by
    decide +kernel
  have hlinked : machine.isFile "../way/./a.go".toList = true := by decide +kernel
  have hbeside : machine.isFile "b.go".toList = true := by decide +kernel
  have hprinted : machine.relative "../way/./a.go".toList root = "cmd/a.go".toList := by
    decide +kernel
  have hclimbed : machine.relative "b.go".toList root = "../lib/b.go".toList := by
    decide +kernel
  obtain ⟨-, -, -, -, -, -, -, -, hspelling⟩ := relative_leads_back hlawful hroot hlinked
  have hother := hspelling "/work/proj//cmd/a.go".toList (by decide +kernel) (by decide +kernel)
  obtain ⟨folder, name, hparent, hname, -, hfollowed, -⟩ :=
    relative_leads_back hlawful hroot hbeside
  rw [hclimbed] at hfollowed
  exact ⟨hlawful, hroot, hlinked, hbeside, hprinted, hother.trans hprinted, hclimbed, folder, name,
    hparent, hname, hfollowed⟩

end Machine

end HeaderStamp
