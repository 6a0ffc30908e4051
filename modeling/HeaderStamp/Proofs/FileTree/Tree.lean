import HeaderStamp.FileTree.Basic
import Mathlib.Data.Option.Basic

namespace HeaderStamp

def Node.below? : Node → Location → Option Node
  | .folder inside, location => inside.at? location
  | node, [] => some node
  | _, _ :: _ => none

/-- A node without what stands in a folder. -/
def Node.surface : Node → Node
  | .folder _ => .folder .empty
  | node => node

@[simp] theorem Node.surface_file {node : Node} {bytes : Bytes} :
    node.surface = .file bytes ↔ node = .file bytes := by
  cases node <;> simp [surface]

namespace Folder

@[simp] theorem at?_nil (root : Folder) : root.at? [] = some (.folder root) := by
  cases root <;> rfl

theorem at?_cons (root : Folder) (name : Text) (below : Location) :
    root.at? (name :: below) = (root.find? name).bind (·.below? below) := by
  rw [at?]
  cases root.find? name with
  | none => rfl
  | some node => cases node <;> cases below <;> rfl

theorem below?_nil (node : Node) : node.below? [] = some node := by
  cases node <;> simp [Node.below?]

theorem at?_append (root : Folder) (above below : Location) :
    root.at? (above ++ below) = (root.at? above).bind (·.below? below) := by
  induction above generalizing root with
  | nil => simp [Node.below?]
  | cons name above ih =>
    rw [List.cons_append, at?_cons, at?_cons, Option.bind_assoc]
    congr 1
    funext node
    cases node with
    | folder inside => exact ih inside
    | file bytes => cases above <;> cases below <;> rfl
    | link target => cases above <;> cases below <;> rfl

theorem at?_concat {root inside : Folder} {location : Location}
    (h : root.at? location = some (.folder inside)) (name : Text) :
    root.at? (location ++ [name]) = inside.find? name := by
  rw [at?_append, h, Option.bind_some, Node.below?, at?_cons]
  cases inside.find? name with
  | none => rfl
  | some node => exact below?_nil node

theorem exists_folder_of_at?_append {root : Folder} {above below : Location} {node : Node}
    (hne : below ≠ []) (h : root.at? (above ++ below) = some node) :
    ∃ inside, root.at? above = some (.folder inside) := by
  rw [at?_append] at h
  obtain ⟨upper, hupper, hbelow⟩ := Option.bind_eq_some_iff.mp h
  obtain ⟨name, below, rfl⟩ := List.exists_cons_of_ne_nil hne
  cases upper with
  | folder inside => exact ⟨inside, hupper⟩
  | file bytes => cases hbelow
  | link target => cases hbelow

theorem exists_folder_of_prefix {root inside : Folder} {above place : Location}
    (habove : above <+: place) (h : root.at? place = some (.folder inside)) :
    ∃ outer, root.at? above = some (.folder outer) := by
  obtain ⟨below, rfl⟩ := habove
  by_cases hne : below = []
  · rw [hne, List.append_nil] at h
    exact ⟨inside, h⟩
  · exact exists_folder_of_at?_append hne h

/-- Every folder is empty or has an entry in front, whatever stands there. -/
@[elab_as_elim]
theorem entryInduction {motive : Folder → Prop} (empty : motive .empty)
    (cons : ∀ name node rest, motive rest → motive (cons name node rest)) (folder : Folder) :
    motive folder := by
  induction folder with
  | empty => exact empty
  | file name bytes rest ih => exact cons name (.file bytes) rest ih
  | link name target rest ih => exact cons name (.link target) rest ih
  | folder name inside rest _ ih => exact cons name (.folder inside) rest ih

theorem find?_cons (name n : Text) (node : Node) (rest : Folder) :
    (cons name node rest).find? n = if name = n then some node else rest.find? n := by
  cases node <;> rfl

theorem put_cons (name n : Text) (node new : Node) (rest : Folder) :
    (cons name node rest).put n new =
      if name = n then cons n new rest else cons name node (rest.put n new) := by
  cases node <;> rfl

theorem find?_put (name n : Text) (node : Node) (folder : Folder) :
    (folder.put name node).find? n = if name = n then some node else folder.find? n := by
  induction folder using entryInduction with
  | empty => rw [put, find?_cons]
  | cons m old rest ih =>
    rw [put_cons, find?_cons]
    by_cases hm : m = name
    · rw [if_pos hm, find?_cons, hm]
      split <;> rfl
    · rw [if_neg hm, find?_cons, ih]
      by_cases hn : m = n
      · rw [if_pos hn, if_pos hn, if_neg (hn ▸ Ne.symm hm)]
      · rw [if_neg hn, if_neg hn]

theorem find?_of_at?_cons {root : Folder} {name : Text} {below : Location} {bytes : Bytes}
    (h : root.at? (name :: below) = some (.file bytes)) :
    below = [] ∧ root.find? name = some (.file bytes) ∨
      below ≠ [] ∧ ∃ inside, root.find? name = some (.folder inside) ∧
        inside.at? below = some (.file bytes) := by
  rw [at?_cons] at h
  obtain ⟨node, hnode, hbelow⟩ := Option.bind_eq_some_iff.mp h
  cases below with
  | nil =>
    rw [below?_nil, Option.some.injEq] at hbelow
    exact .inl ⟨rfl, hbelow ▸ hnode⟩
  | cons next below =>
    cases node with
    | file _ => cases hbelow
    | link _ => cases hbelow
    | folder inside => exact .inr ⟨List.cons_ne_nil _ _, inside, hnode, hbelow⟩

/-- A location where a file can stand: there are folders all the way, but none at its end. -/
inductive HasRoom : Folder → Location → Prop
  | here {root : Folder} {name : Text} :
      (∀ inside, root.find? name ≠ some (.folder inside)) → HasRoom root [name]
  | under {root inside : Folder} {name : Text} {location : Location} :
      root.find? name = some (.folder inside) → HasRoom inside location →
      HasRoom root (name :: location)

theorem HasRoom.of_file {root : Folder} {location : Location} {bytes : Bytes}
    (h : root.at? location = some (.file bytes)) : HasRoom root location := by
  induction location generalizing root with
  | nil => simp at h
  | cons name below ih =>
    rcases find?_of_at?_cons h with ⟨rfl, hfile⟩ | ⟨-, inside, hinside, hbelow⟩
    · refine .here fun inside hinside ↦ ?_
      rw [hfile] at hinside
      cases hinside
    · exact .under hinside (ih hbelow)

theorem HasRoom.of_absent {root inside : Folder} {folder : Location} {name : Text}
    (hfolder : root.at? folder = some (.folder inside)) (hname : inside.find? name = none) :
    HasRoom root (folder ++ [name]) := by
  induction folder generalizing root with
  | nil =>
    rw [at?_nil, Option.some.injEq, Node.folder.injEq] at hfolder
    subst hfolder
    exact .here fun below hbelow ↦ by simp [hname] at hbelow
  | cons first folder ih =>
    rw [at?_cons] at hfolder
    obtain ⟨node, hnode, hbelow⟩ := Option.bind_eq_some_iff.mp hfolder
    cases node with
    | folder upper => exact .under hnode (ih hbelow)
    | file _ => cases folder <;> cases hbelow
    | link _ => cases folder <;> cases hbelow

theorem HasRoom.ne_nil {root : Folder} {location : Location} (h : HasRoom root location) :
    location ≠ [] := by
  cases h <;> exact List.cons_ne_nil _ _

/-- New bytes in a file are seen at its location and nowhere else. -/
theorem HasRoom.surface_at?_putAt {root : Folder} {location : Location} (bytes : Bytes)
    (h : HasRoom root location) (other : Location) :
    ((root.putAt (.file bytes) location).at? other).map Node.surface =
      if other = location then some (.file bytes) else (root.at? other).map Node.surface := by
  induction h generalizing other with
  | @here root name hno =>
    cases other with
    | nil => simp [Node.surface]
    | cons n rest =>
      rw [putAt, at?_cons, at?_cons, find?_put]
      by_cases hn : name = n
      · subst hn
        rw [if_pos rfl, Option.bind_some]
        cases rest with
        | nil => simp [Node.below?, Node.surface]
        | cons next rest =>
          cases hnode : root.find? name with
          | none => simp [Node.below?]
          | some node =>
            cases node with
            | folder inside => exact absurd hnode (hno inside)
            | file _ => simp [Node.below?]
            | link _ => simp [Node.below?]
      · simp [hn, Ne.symm hn]
  | @under root inside name location hinside hroom ih =>
    obtain ⟨next, below, rfl⟩ := List.exists_cons_of_ne_nil hroom.ne_nil
    cases other with
    | nil => simp [Node.surface]
    | cons n rest =>
      rw [putAt, hinside]
      dsimp only
      rw [at?_cons, at?_cons, find?_put]
      by_cases hn : name = n
      · subst hn
        simpa [hinside, Node.below?] using ih rest
      · simp [hn, Ne.symm hn]

theorem HasRoom.at?_putAt_self {root : Folder} {location : Location} (bytes : Bytes)
    (h : HasRoom root location) :
    (root.putAt (.file bytes) location).at? location = some (.file bytes) := by
  have hsurface := h.surface_at?_putAt bytes location
  rw [if_pos rfl] at hsurface
  obtain ⟨node, hnode, hfile⟩ := Option.map_eq_some_iff.mp hsurface
  rw [hnode, Node.surface_file.mp hfile]

end Folder

end HeaderStamp
