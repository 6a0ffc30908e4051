import HeaderStamp.Proofs.Attempts
import HeaderStamp.Proofs.FileTree.Creation
import HeaderStamp.Proofs.FileTree.Entry

namespace HeaderStamp

namespace Folder

variable {root inside : Folder} {name : Text} {node : Node} {location : Location}

theorem Lawful.put (h : root.Lawful) (hname : Path.IsName name) (hnode : node.Lawful) :
    (root.put name node).Lawful := by
  induction root using entryInduction with
  | empty => exact lawful_cons.mpr ⟨hname, rfl, hnode, trivial⟩
  | cons n first rest ih =>
    obtain ⟨hn, hfresh, hfirst, hrest⟩ := lawful_cons.mp h
    rw [put_cons]
    split
    · rename_i heq
      exact lawful_cons.mpr ⟨hname, heq ▸ hfresh, hnode, hrest⟩
    · rename_i hne
      refine lawful_cons.mpr ⟨hn, ?_, hfirst, ih hrest⟩
      rw [find?_put, if_neg (Ne.symm hne), hfresh]

theorem Lawful.putAt (h : root.Lawful) (hnames : ∀ name ∈ location, Path.IsName name)
    (hnode : node.Lawful) : (root.putAt node location).Lawful := by
  induction location generalizing root with
  | nil => exact h
  | cons name below ih =>
    obtain ⟨hname, hbelow⟩ := List.forall_mem_cons.mp hnames
    cases below with
    | nil => exact h.put hname hnode
    | cons next below =>
      cases hfind : root.find? name with
      | none => rwa [Folder.putAt, hfind]
      | some found =>
        cases found with
        | file bytes => rwa [Folder.putAt, hfind]
        | link target => rwa [Folder.putAt, hfind]
        | folder inside =>
          have hinside : inside.Lawful := (h.of_find? hfind).2
          rw [Folder.putAt, hfind]
          exact h.put hname (ih hinside hbelow)

/-- Where there is no directory in the way, an entry is made without moving the others. -/
theorem HasRoom.exists_folder_putAt (h : root.HasRoom location) (node : Node) {other : Location}
    (hat : root.at? other = some (.folder inside)) :
    ∃ outer, (root.putAt node location).at? other = some (.folder outer) := by
  induction h generalizing other with
  | @here root name hno =>
    cases other with
    | nil => exact ⟨_, at?_nil _⟩
    | cons n rest =>
      rw [at?_cons] at hat
      rw [Folder.putAt, at?_cons, find?_put]
      by_cases hn : name = n
      · subst hn
        obtain ⟨found, hfound, hrest⟩ := Option.bind_eq_some_iff.mp hat
        cases found with
        | folder lower => exact absurd hfound (hno lower)
        | file bytes => cases rest <;> cases hrest
        | link target => cases rest <;> cases hrest
      · rw [if_neg hn]
        exact ⟨inside, hat⟩
  | @under root lower name location hlower hroom ih =>
    obtain ⟨next, below, rfl⟩ := List.exists_cons_of_ne_nil hroom.ne_nil
    rw [Folder.putAt, hlower]
    cases other with
    | nil => exact ⟨_, at?_nil _⟩
    | cons n rest =>
      rw [at?_cons] at hat
      dsimp only
      rw [at?_cons, find?_put]
      by_cases hn : name = n
      · subst hn
        rw [hlower] at hat
        rw [if_pos rfl]
        exact ih hat
      · rw [if_neg hn]
        exact ⟨inside, hat⟩

end Folder

namespace Machine

open HeaderStamp.Path

def Whole (pieces : List Text) : Prop := ∀ step ∈ pieces, '/' ∉ step ∧ step ≠ []

theorem whole_steps (path : Text) : Whole (steps path) := by
  intro step hstep
  by_cases hdot : step = ['.']
  · rw [hdot]
    decide
  · by_cases hparent : step = ['.', '.']
    · rw [hparent]
      decide
    · have hname := isName_of_mem_steps hstep hdot hparent
      exact ⟨hname.1, hname.2.1⟩

theorem isName_of_advance {tree : Folder} {last : Bool} {here folder : Location} {name : Text}
    {pieces : List Text} (hwhole : Whole pieces)
    (h : advance tree last here pieces = .arrived (.absent folder name)) : IsName name := by
  fun_induction advance tree last here pieces with
  | case3 here rest inside hat ih => exact ih (List.forall_mem_cons.mp hwhole).2 h
  | case4 here rest inside hat _ ih => exact ih (List.forall_mem_cons.mp hwhole).2 h
  | case5 here step inside hat hdot hparent hfind =>
    cases h
    obtain ⟨hslash, hne⟩ := hwhole name List.mem_cons_self
    exact ⟨hslash, hne, hdot, hparent⟩
  | case9 here step rest inside hat _ _ found _ hfind ih =>
    exact ih (List.forall_mem_cons.mp hwhole).2 h
  | case1 | case2 | case6 | case7 | case8 | case10 | case11 => cases h

theorem whole_of_advance {tree : Folder} {last : Bool} {here folder : Location} {target : Text}
    {pieces after : List Text} (hwhole : Whole pieces)
    (h : advance tree last here pieces = .atLink folder target after) : Whole after := by
  fun_induction advance tree last here pieces with
  | case3 here rest inside hat ih => exact ih (List.forall_mem_cons.mp hwhole).2 h
  | case4 here rest inside hat _ ih => exact ih (List.forall_mem_cons.mp hwhole).2 h
  | case8 here step rest inside hat _ _ found hfind _ =>
    cases h
    exact (List.forall_mem_cons.mp hwhole).2
  | case9 here step rest inside hat _ _ found _ hfind ih =>
    exact ih (List.forall_mem_cons.mp hwhole).2 h
  | case1 | case2 | case5 | case6 | case7 | case10 | case11 => cases h

theorem isName_of_follow {tree : Folder} {last : Bool} {budget : Nat} {here folder : Location}
    {name : Text} {pieces : List Text} (hwhole : Whole pieces)
    (h : follow tree last budget here pieces = .ok (.absent folder name)) : IsName name := by
  obtain ⟨start, rest, hrest, harrived⟩ :=
    exists_advance_of_follow (P := fun _ pieces ↦ Whole pieces)
      (fun hpieces hreach ↦ List.forall_mem_append.mpr
        ⟨whole_steps _, whole_of_advance hpieces hreach⟩) hwhole h
  exact isName_of_advance hrest harrived

theorem isName_of_locateWith {machine : Machine} {last : Bool} {path name : Text}
    {folder : Location} (h : machine.locateWith last path = .ok (.absent folder name)) :
    IsName name :=
  isName_of_follow (whole_steps path) (follow_of_locateWith h)

theorem lawful_empty : Lawful ⟨.empty, []⟩ := ⟨trivial, .empty, rfl⟩

namespace Lawful

variable {machine after : Machine} {location folder : Location} {node : Node} {name path : Text}

theorem putAt (h : machine.Lawful) (hnames : ∀ name ∈ location, IsName name)
    (hroom : machine.tree.HasRoom location) (hnode : node.Lawful) :
    Lawful { machine with tree := machine.tree.putAt node location } := by
  obtain ⟨inside, hcwd⟩ := h.cwd
  exact ⟨h.tree.putAt hnames hnode, hroom.exists_folder_putAt node hcwd⟩

theorem putAt_absent (h : machine.Lawful) {last : Bool}
    (hlocate : machine.locateWith last path = .ok (.absent folder name)) (hnode : node.Lawful) :
    Lawful { machine with tree := machine.tree.putAt node (folder ++ [name]) } := by
  obtain ⟨inside, hinside, hfresh⟩ := exists_folder_of_locateWith_absent hlocate
  refine h.putAt ?_ (.of_absent hinside hfresh) hnode
  exact List.forall_mem_append.mpr
    ⟨h.names hinside, List.forall_mem_singleton.mpr (isName_of_locateWith hlocate)⟩

theorem withFile (h : machine.Lawful) {old : Option Bytes}
    (hslot : machine.slot path = .ok (location, old)) (bytes : Bytes) :
    (machine.withFile location bytes).Lawful := by
  rcases slot_eq_ok hslot with ⟨before, -, hlocate⟩ | ⟨folder, name, -, rfl, hlocate⟩
  · exact h.putAt (h.names (at?_of_locate hlocate)) (hasRoom_of_slot hslot) trivial
  · exact h.putAt_absent hlocate trivial

theorem write {bytes : Bytes} (h : machine.Lawful) (hwrite : machine.write path bytes = .ok after) :
    after.Lawful := by
  obtain ⟨⟨location, old⟩, hslot, rfl⟩ := map_eq_ok_iff.mp hwrite
  exact h.withFile hslot bytes

theorem append {bytes : Bytes} (h : machine.Lawful)
    (happend : machine.append path bytes = .ok after) : after.Lawful := by
  obtain ⟨location, old, hslot, rfl⟩ := exists_slot_of_append happend
  exact h.withFile hslot _

theorem makeLink (h : machine.Lawful) (path target : Text) :
    (machine.makeLink path target).Lawful := by
  rw [Machine.makeLink]
  split
  · rename_i folder name hlocate
    exact h.putAt_absent hlocate trivial
  · exact h

theorem makeFolders (h : machine.Lawful) (path : Text) : (machine.makeFolders path).Lawful := by
  rw [Machine.makeFolders]
  dsimp only
  generalize (if isAbsolute path = true then ['/'] else []) = start
  generalize steps path = pieces
  induction pieces generalizing machine start with
  | nil => exact h
  | cons piece pieces ih =>
    rw [List.foldl_cons]
    split
    · rename_i folder name hlocate
      have hempty : (Node.folder .empty).Lawful := trivial
      exact ih (h.putAt_absent hlocate hempty) _
    · exact ih h _

theorem enter (h : machine.Lawful) (path : Text) : (machine.enter path).Lawful := by
  rw [Machine.enter]
  split
  · rename_i location inside hlocate
    have hat := at?_of_locate hlocate
    exact ⟨h.tree, inside, hat⟩
  · exact h

end Lawful

end Machine

end HeaderStamp
