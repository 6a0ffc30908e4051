import HeaderStamp.Proofs.FileTree.Leading
import HeaderStamp.Proofs.Paths.Route

namespace HeaderStamp

namespace Folder

/-- Every entry has a name that can stand between slashes, and no two entries of one directory
have the same one. -/
def Lawful : Folder → Prop
  | .empty => True
  | .file name _ rest => Path.IsName name ∧ rest.find? name = none ∧ rest.Lawful
  | .link name _ rest => Path.IsName name ∧ rest.find? name = none ∧ rest.Lawful
  | .folder name inside rest =>
    Path.IsName name ∧ rest.find? name = none ∧ inside.Lawful ∧ rest.Lawful

instance decidableLawful : (folder : Folder) → Decidable folder.Lawful
  | .empty => .isTrue trivial
  | .file _ _ rest =>
    have := decidableLawful rest
    inferInstanceAs (Decidable (_ ∧ _ ∧ _))
  | .link _ _ rest =>
    have := decidableLawful rest
    inferInstanceAs (Decidable (_ ∧ _ ∧ _))
  | .folder _ inside rest =>
    have := decidableLawful inside
    have := decidableLawful rest
    inferInstanceAs (Decidable (_ ∧ _ ∧ _ ∧ _))

end Folder

def Node.Lawful : Node → Prop
  | .folder inside => inside.Lawful
  | _ => True

namespace Folder

variable {tree inside : Folder} {here : Location} {name : Text} {node : Node}

theorem lawful_cons {rest : Folder} :
    (cons name node rest).Lawful ↔
      Path.IsName name ∧ rest.find? name = none ∧ node.Lawful ∧ rest.Lawful := by
  cases node <;> simp [cons, Lawful, Node.Lawful]

theorem Lawful.of_find? (h : tree.Lawful) (hfind : tree.find? name = some node) :
    Path.IsName name ∧ node.Lawful := by
  induction tree using entryInduction with
  | empty => cases hfind
  | cons n first rest ih =>
    rw [lawful_cons] at h
    rw [find?_cons] at hfind
    split at hfind
    · rename_i hname
      cases hfind
      exact ⟨hname ▸ h.1, h.2.2.1⟩
    · exact ih h.2.2.2 hfind

theorem Lawful.of_at? (h : tree.Lawful) (hat : tree.at? here = some node) :
    (∀ name ∈ here, Path.IsName name) ∧ node.Lawful := by
  induction here generalizing tree with
  | nil =>
    rw [at?_nil, Option.some.injEq] at hat
    subst hat
    exact ⟨fun _ hmem ↦ absurd hmem List.not_mem_nil, h⟩
  | cons name below ih =>
    rw [at?_cons] at hat
    obtain ⟨first, hfirst, hbelow⟩ := Option.bind_eq_some_iff.mp hat
    obtain ⟨hname, hlawful⟩ := h.of_find? hfirst
    cases below with
    | nil =>
      rw [below?_nil, Option.some.injEq] at hbelow
      subst hbelow
      exact ⟨fun n hn ↦ List.mem_singleton.mp hn ▸ hname, hlawful⟩
    | cons next below =>
      cases first with
      | file bytes => cases hbelow
      | link target => cases hbelow
      | folder inside =>
        obtain ⟨hnames, hnode⟩ := ih hlawful hbelow
        exact ⟨List.forall_mem_cons.mpr ⟨hname, hnames⟩, hnode⟩

theorem Lawful.leads {below : Location} (h : tree.Lawful)
    (hat : tree.at? (here ++ below) = some node) (hlink : ∀ target, node ≠ .link target) :
    Machine.Leads tree 0 here below (here ++ below) := by
  induction below generalizing here with
  | nil =>
    rw [List.append_nil] at hat ⊢
    exact .arrive hat
  | cons name below ih =>
    obtain ⟨inside, hinside⟩ := exists_folder_of_at?_append (List.cons_ne_nil name below) hat
    rw [← List.singleton_append, ← List.append_assoc] at hat ⊢
    obtain ⟨next, hnext, hnextLink⟩ : ∃ next, tree.at? (here ++ [name]) = some next ∧
        ∀ target, next ≠ .link target := by
      by_cases hne : below = []
      · subst hne
        rw [List.append_nil] at hat
        exact ⟨node, hat, hlink⟩
      · obtain ⟨lower, hlower⟩ := exists_folder_of_at?_append hne hat
        exact ⟨_, hlower, fun _ ↦ Node.noConfusion⟩
    obtain ⟨-, -, hdot, hparent⟩ := (h.of_at? hnext).1 name (by simp)
    rw [at?_concat hinside] at hnext
    exact .enter hinside hdot hparent hnext hnextLink (ih hat)

end Folder

namespace Machine

structure Lawful (machine : Machine) : Prop where
  tree : machine.tree.Lawful
  cwd : ∃ inside, machine.tree.at? machine.cwd = some (.folder inside)

def origin (machine : Machine) (path : Text) : Location :=
  if Path.isAbsolute path then [] else machine.cwd

section Steps

open HeaderStamp.Path

theorem map_text_ofPiece? (piece : Text) :
    (Component.ofPiece? piece).map Component.text =
      Option.guard (fun p ↦ decide (p ≠ ['.']) && decide (p ≠ [])) piece := by
  rw [Component.ofPiece?, Option.guard]
  by_cases hempty : piece = []
  · simp [hempty]
  · by_cases hdot : piece = ['.']
    · simp [hdot]
    · by_cases hparent : piece = ['.', '.']
      · simp [hparent, Component.text]
      · simp [hempty, hdot, hparent, Component.text]

theorem filter_pieces (path : Text) :
    ((Text.split '/' path).filter (· ≠ [])).filter (· ≠ ['.']) =
      (stepsOf path).map Component.text := by
  rw [stepsOf, List.map_filterMap, List.filter_filter, ← List.filterMap_eq_filter]
  exact List.filterMap_congr fun piece _ ↦ (map_text_ofPiece? piece).symm

theorem filter_steps (path : Text) :
    (steps path).filter (· ≠ ['.']) = (stepsOf path).map Component.text := by
  rw [steps]
  split
  · rw [List.filter_append, filter_pieces, List.filter_cons_of_neg (by simp), List.filter_nil,
      List.append_nil]
  · exact filter_pieces path

theorem Leads.texts {tree : Folder} {links : Nat} {here place : Location} {path : Text}
    (h : Leads tree links here (steps path) place) :
    Leads tree links here ((stepsOf path).map Component.text) place := by
  rw [← filter_steps]
  exact h.drop_dots

theorem Leads.of_texts {tree inside : Folder} {links : Nat} {here place : Location} {path : Text}
    (h : Leads tree links here ((stepsOf path).map Component.text) place)
    (hplace : tree.at? place = some (.folder inside)) :
    Leads tree links here (steps path) place := by
  rw [← filter_steps] at h
  exact h.add_dots hplace

end Steps

variable {machine : Machine}

theorem locate_eq_present_iff {path : Text} {place : Location} {node : Node} :
    machine.locate path = .ok (.present place node) ↔
      path ≠ [] ∧ machine.tree.at? place = some node ∧
        ∃ links ≤ linkLimit, Leads machine.tree links (machine.origin path) (steps path) place := by
  rw [locate, locateWith, ← follow_eq_present_iff, origin]
  split
  · rename_i hnil
    simp [hnil]
  · rename_i hne
    simp [hne]

namespace Lawful

variable {place : Location} {inside : Folder}

theorem names (h : machine.Lawful) {node : Node} (hat : machine.tree.at? place = some node) :
    ∀ name ∈ place, Path.IsName name :=
  (h.tree.of_at? hat).1

theorem cwd_names (h : machine.Lawful) : ∀ name ∈ machine.cwd, Path.IsName name :=
  let ⟨_, hcwd⟩ := h.cwd
  h.names hcwd

theorem exists_origin (h : machine.Lawful) (path : Text) :
    ∃ inside, machine.tree.at? (machine.origin path) = some (.folder inside) := by
  rw [origin]
  split
  · exact ⟨machine.tree, Folder.at?_nil _⟩
  · exact h.cwd

theorem stepsOf_absolute (h : machine.Lawful) (path : Text) :
    Path.stepsOf (machine.absolute path) =
      (machine.origin path).map .name ++ Path.stepsOf path := by
  rw [absolute, origin]
  split
  · rfl
  · rename_i hrelative
    rw [Path.stepsOf_append (by simpa using hrelative), cwdText, locationText,
      Path.stepsOf_cons_slash, Path.stepsOf_join_names h.cwd_names]

end Lawful

theorem isAbsolute_absolute (machine : Machine) (path : Text) :
    Path.isAbsolute (machine.absolute path) = true := by
  rw [absolute]
  split
  · assumption
  · exact Path.isAbsolute_append (Path.isAbsolute_locationText machine.cwd)

end Machine

end HeaderStamp
