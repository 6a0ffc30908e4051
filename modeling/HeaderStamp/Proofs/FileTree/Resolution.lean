import HeaderStamp.FileTree.Machine
import HeaderStamp.Proofs.FileTree.Tree
import Mathlib.Data.List.Induction

namespace HeaderStamp

/-- What a node is, whatever a file or a folder holds. -/
def Node.outline : Node → Node
  | .file _ => .file []
  | .link target => .link target
  | .folder _ => .folder .empty

theorem Node.outline_surface (node : Node) : node.surface.outline = node.outline := by
  cases node <;> rfl

def Folder.kind? (root : Folder) (location : Location) : Option Node :=
  (root.at? location).map Node.outline

theorem Folder.kind?_eq_surface (root : Folder) (location : Location) :
    root.kind? location = ((root.at? location).map Node.surface).map Node.outline := by
  simp only [kind?, Option.map_map, Function.comp_def, Node.outline_surface]

theorem Folder.HasRoom.kind?_putAt {root : Folder} {location : Location} (bytes : Bytes)
    (h : root.HasRoom location) (other : Location) :
    (root.putAt (.file bytes) location).kind? other =
      if other = location then some (.file []) else root.kind? other := by
  rw [kind?_eq_surface, h.surface_at?_putAt, kind?_eq_surface]
  split <;> rfl

def Place.outline : Place → Place
  | .present location node => .present location node.outline
  | .absent folder name => .absent folder name

namespace Machine

def Reach.outline : Reach → Reach
  | .arrived place => .arrived place.outline
  | .atLink folder target rest => .atLink folder target rest
  | .refused fault => .refused fault

theorem outline_advance_nil (tree : Folder) (last : Bool) (here : Location) :
    (advance tree last here []).outline =
      match tree.kind? here with
      | some node => .arrived (.present here node)
      | none => .refused .notFound := by
  rw [advance, Folder.kind?]
  cases tree.at? here <;> rfl

theorem outline_advance_cons (tree : Folder) (last : Bool) (here : Location) (step : Text)
    (rest : List Text) :
    (advance tree last here (step :: rest)).outline =
      match tree.kind? here with
      | some (.folder _) =>
        if step = ['.'] then (advance tree last here rest).outline
        else if step = ['.', '.'] then (advance tree last here.dropLast rest).outline
        else
          match tree.kind? (here ++ [step]) with
          | none => if rest = [] then .arrived (.absent here step) else .refused .notFound
          | some (.link target) =>
            if rest = [] ∧ !last then .arrived (.present (here ++ [step]) (.link target))
            else .atLink here target rest
          | some _ => (advance tree last (here ++ [step]) rest).outline
      | some _ => .refused .notDirectory
      | none => .refused .notFound := by
  rw [advance, Folder.kind?]
  cases hat : tree.at? here with
  | none => rfl
  | some node =>
    cases node with
    | file bytes => rfl
    | link target => rfl
    | folder inside =>
      rw [Folder.kind?, Folder.at?_concat hat]
      simp only [Option.map_some, Node.outline, apply_ite Reach.outline]
      congr 2
      cases inside.find? step with
      | none => exact apply_ite Reach.outline _ _ _
      | some node =>
        cases node with
        | file bytes => rfl
        | folder below => rfl
        | link target => exact apply_ite Reach.outline _ _ _

theorem outline_advance {before after : Folder} (h : after.kind? = before.kind?) (last : Bool)
    (here : Location) (steps : List Text) :
    (advance after last here steps).outline = (advance before last here steps).outline := by
  induction steps generalizing here with
  | nil => rw [outline_advance_nil, outline_advance_nil, h]
  | cons step rest ih => simp only [outline_advance_cons, h, ih]

theorem outline_follow_eq (tree : Folder) (last : Bool) (budget : Nat) (here : Location)
    (steps : List Text) :
    (follow tree last budget here steps).map Place.outline =
      match (advance tree last here steps).outline with
      | .arrived place => .ok place
      | .refused fault => .error fault
      | .atLink folder target after =>
        match budget with
        | 0 => .error .tooManyLinks
        | budget + 1 =>
          if target = [] then .error .notFound
          else
            (follow tree last budget (if Path.isAbsolute target then [] else folder)
              (Machine.steps target ++ after)).map Place.outline := by
  rw [follow.eq_def]
  dsimp only
  cases advance tree last here steps with
  | arrived place => rfl
  | refused fault => rfl
  | atLink folder target after =>
    cases budget with
    | zero => rfl
    | succ budget => exact apply_ite (Except.map Place.outline) _ _ _

theorem outline_follow {before after : Folder} (h : after.kind? = before.kind?) (last : Bool)
    (budget : Nat) (here : Location) (steps : List Text) :
    (follow after last budget here steps).map Place.outline =
      (follow before last budget here steps).map Place.outline := by
  induction budget generalizing here steps with
  | zero => rw [outline_follow_eq, outline_follow_eq, outline_advance h]
  | succ budget ih => simp only [outline_follow_eq _ _ (budget + 1), outline_advance h, ih]

theorem outline_locate {before after : Machine} (hcwd : after.cwd = before.cwd)
    (h : after.tree.kind? = before.tree.kind?) (path : Text) :
    (after.locate path).map Place.outline = (before.locate path).map Place.outline := by
  rw [locate, locate, locateWith, locateWith, hcwd]
  split
  · rfl
  · exact outline_follow h _ _ _ _

theorem at?_of_advance {tree : Folder} {last : Bool} {here location : Location} {node : Node}
    {steps : List Text} (h : advance tree last here steps = .arrived (.present location node)) :
    tree.at? location = some node := by
  fun_induction advance tree last here steps with
  | case1 here found hat =>
    cases h
    exact hat
  | case3 here rest inside hat ih => exact ih h
  | case4 here rest inside hat _ ih => exact ih h
  | case7 here step rest inside hat _ _ target hfind _ =>
    cases h
    rw [Folder.at?_concat hat, hfind]
  | case9 here step rest inside hat _ _ found _ hfind ih => exact ih h
  | case2 | case5 | case6 | case8 | case10 | case11 => cases h

/-- What a walk with links leads to is arrived at in a last walk without links. Whatever holds at
the start and is kept by every link holds where that walk begins. -/
theorem exists_advance_of_follow {tree : Folder} {last : Bool} {P : Location → List Text → Prop}
    (hlink : ∀ {here folder steps target after}, P here steps →
      advance tree last here steps = .atLink folder target after →
      P (if Path.isAbsolute target then [] else folder) (Machine.steps target ++ after))
    {budget : Nat} {here : Location} {steps : List Text} {place : Place} (hstart : P here steps)
    (h : follow tree last budget here steps = .ok place) :
    ∃ start rest, P start rest ∧ advance tree last start rest = .arrived place := by
  fun_induction follow tree last budget here steps with
  | case1 budget here steps found harrived =>
    cases h
    exact ⟨here, steps, hstart, harrived⟩
  | case5 here steps folder target rest hreach budget hne ih => exact ih (hlink hstart hreach) h
  | case2 | case3 | case4 => cases h

theorem at?_of_follow {tree : Folder} {last : Bool} {budget : Nat} {here location : Location}
    {node : Node} {steps : List Text}
    (h : follow tree last budget here steps = .ok (.present location node)) :
    tree.at? location = some node := by
  obtain ⟨start, rest, -, harrived⟩ :=
    exists_advance_of_follow (P := fun _ _ ↦ True) (fun _ _ ↦ trivial) trivial h
  exact at?_of_advance harrived

theorem exists_folder_of_advance_absent {tree : Folder} {last : Bool} {here folder : Location}
    {name : Text} {steps : List Text}
    (h : advance tree last here steps = .arrived (.absent folder name)) :
    ∃ inside, tree.at? folder = some (.folder inside) ∧ inside.find? name = none := by
  fun_induction advance tree last here steps with
  | case3 here rest inside hat ih => exact ih h
  | case4 here rest inside hat _ ih => exact ih h
  | case5 here step inside hat _ _ hfind =>
    cases h
    exact ⟨inside, hat, hfind⟩
  | case9 here step rest inside hat _ _ found _ hfind ih => exact ih h
  | case1 | case2 | case6 | case7 | case8 | case10 | case11 => cases h

theorem exists_folder_of_follow_absent {tree : Folder} {last : Bool} {budget : Nat}
    {here folder : Location} {name : Text} {steps : List Text}
    (h : follow tree last budget here steps = .ok (.absent folder name)) :
    ∃ inside, tree.at? folder = some (.folder inside) ∧ inside.find? name = none := by
  obtain ⟨start, rest, -, harrived⟩ :=
    exists_advance_of_follow (P := fun _ _ ↦ True) (fun _ _ ↦ trivial) trivial h
  exact exists_folder_of_advance_absent harrived

theorem follow_of_locateWith {machine : Machine} {last : Bool} {path : Text} {place : Place}
    (h : machine.locateWith last path = .ok place) :
    follow machine.tree last linkLimit (if Path.isAbsolute path then [] else machine.cwd)
      (steps path) = .ok place := by
  rw [locateWith] at h
  split at h
  · cases h
  · exact h

theorem at?_of_locateWith {machine : Machine} {last : Bool} {path : Text} {location : Location}
    {node : Node} (h : machine.locateWith last path = .ok (.present location node)) :
    machine.tree.at? location = some node :=
  at?_of_follow (follow_of_locateWith h)

theorem at?_of_locate {machine : Machine} {path : Text} {location : Location} {node : Node}
    (h : machine.locate path = .ok (.present location node)) :
    machine.tree.at? location = some node :=
  at?_of_locateWith h

theorem exists_folder_of_locateWith_absent {machine : Machine} {last : Bool} {path name : Text}
    {folder : Location} (h : machine.locateWith last path = .ok (.absent folder name)) :
    ∃ inside, machine.tree.at? folder = some (.folder inside) ∧ inside.find? name = none :=
  exists_folder_of_follow_absent (follow_of_locateWith h)

theorem exists_folder_of_locate_absent {machine : Machine} {path name : Text} {folder : Location}
    (h : machine.locate path = .ok (.absent folder name)) :
    ∃ inside, machine.tree.at? folder = some (.folder inside) ∧ inside.find? name = none :=
  exists_folder_of_locateWith_absent h

def EndsInDots (steps : List Text) : Prop :=
  steps.getLast? = some ['.'] ∨ steps.getLast? = some ['.', '.']

theorem EndsInDots.prepend {steps : List Text} (h : EndsInDots steps) (front : List Text) :
    EndsInDots (front ++ steps) := by
  rcases h with h | h
  · exact .inl (by rw [List.getLast?_append, h]; rfl)
  · exact .inr (by rw [List.getLast?_append, h]; rfl)

theorem EndsInDots.tail {step : Text} {rest : List Text} (h : EndsInDots (step :: rest))
    (hdot : step ≠ ['.']) (hparent : step ≠ ['.', '.']) : EndsInDots rest := by
  cases rest with
  | nil => exact absurd h (by simp [EndsInDots, hdot, hparent])
  | cons next rest => simpa [EndsInDots] using h

def FolderBound (tree : Folder) (here : Location) (steps : List Text) : Prop :=
  EndsInDots steps ∨ steps = [] ∧ ∃ inside, tree.at? here = some (.folder inside)

theorem FolderBound.tail {tree : Folder} {here next : Location} {step : Text} {rest : List Text}
    (h : FolderBound tree here (step :: rest))
    (hnext : ∃ inside, tree.at? next = some (.folder inside)) : FolderBound tree next rest := by
  cases rest with
  | nil => exact .inr ⟨rfl, hnext⟩
  | cons second rest => exact .inl (by simpa [FolderBound, EndsInDots] using h)

theorem FolderBound.endsInDots {tree : Folder} {here : Location} {step : Text} {rest : List Text}
    (h : FolderBound tree here (step :: rest)) : EndsInDots (step :: rest) :=
  h.resolve_right fun hnil ↦ List.cons_ne_nil _ _ hnil.1

theorem exists_folder_dropLast {tree inside : Folder} {here : Location}
    (h : tree.at? here = some (.folder inside)) :
    ∃ above, tree.at? here.dropLast = some (.folder above) :=
  Folder.exists_folder_of_prefix here.dropLast_prefix h

theorem FolderBound.exists_folder {tree : Folder} {last : Bool} {here location : Location}
    {node : Node} {steps : List Text} (hbound : FolderBound tree here steps)
    (h : advance tree last here steps = .arrived (.present location node)) :
    ∃ inside, node = .folder inside := by
  fun_induction advance tree last here steps with
  | case1 here found hat =>
    cases h
    rcases hbound with hdots | ⟨-, inside, hinside⟩
    · simp [EndsInDots] at hdots
    · exact ⟨inside, Option.some.inj (hat.symm.trans hinside)⟩
  | case3 here rest inside hat ih => exact ih (hbound.tail ⟨inside, hat⟩) h
  | case4 here rest inside hat _ ih => exact ih (hbound.tail (exists_folder_dropLast hat)) h
  | case7 here step rest inside hat hdot hparent target hfind hrest =>
    have hdots := hbound.endsInDots.tail hdot hparent
    simp [hrest.1, EndsInDots] at hdots
  | case9 here step rest inside hat hdot hparent found _ hfind ih =>
    exact ih (.inl (hbound.endsInDots.tail hdot hparent)) h
  | case2 | case5 | case6 | case8 | case10 | case11 => cases h

theorem FolderBound.endsInDots_atLink {tree : Folder} {last : Bool} {here folder : Location}
    {target : Text} {steps after : List Text} (hbound : FolderBound tree here steps)
    (h : advance tree last here steps = .atLink folder target after) : EndsInDots after := by
  fun_induction advance tree last here steps with
  | case3 here rest inside hat ih => exact ih (hbound.tail ⟨inside, hat⟩) h
  | case4 here rest inside hat _ ih => exact ih (hbound.tail (exists_folder_dropLast hat)) h
  | case8 here step rest inside hat hdot hparent found hfind _ =>
    cases h
    exact hbound.endsInDots.tail hdot hparent
  | case9 here step rest inside hat hdot hparent found _ hfind ih =>
    exact ih (.inl (hbound.endsInDots.tail hdot hparent)) h
  | case1 | case2 | case5 | case6 | case7 | case10 | case11 => cases h

theorem exists_folder_of_follow {tree : Folder} {last : Bool} {budget : Nat}
    {here location : Location} {node : Node} {steps : List Text} (hdots : EndsInDots steps)
    (h : follow tree last budget here steps = .ok (.present location node)) :
    ∃ inside, node = .folder inside := by
  obtain ⟨start, rest, hrest, harrived⟩ :=
    exists_advance_of_follow (P := fun _ steps ↦ EndsInDots steps)
      (fun hsteps hreach ↦ (FolderBound.endsInDots_atLink (.inl hsteps) hreach).prepend _) hdots h
  exact FolderBound.exists_folder (.inl hrest) harrived

theorem endsInDots_steps {path : Text} (h : wantsFolder path) : EndsInDots (steps path) := by
  rw [steps]
  split
  · exact .inl (by simp)
  · rename_i hslash
    have hlast : ∃ last, (Text.split '/' path).getLast? = some last ∧
        (last = ['.'] ∨ last = ['.', '.']) := by
      rw [wantsFolder] at h
      cases hl : (Text.split '/' path).getLast? with
      | none => simp [hl, hslash] at h
      | some last => exact ⟨last, rfl, by simpa [hl, hslash] using h⟩
    obtain ⟨last, hlast, hdots⟩ := hlast
    obtain ⟨front, hfront⟩ := List.getLast?_eq_some_iff.mp hlast
    have hne : last ≠ [] := by rcases hdots with rfl | rfl <;> simp
    have hfilter : ((Text.split '/' path).filter (· ≠ [])).getLast? = some last := by
      simp [hfront, hne]
    rcases hdots with rfl | rfl
    · exact .inl hfilter
    · exact .inr hfilter

/-- A path that leads to a file can be written to. -/
theorem slot_of_locate {machine : Machine} {path : Text} {location : Location} {bytes : Bytes}
    (h : machine.locate path = .ok (.present location (.file bytes))) :
    machine.slot path = .ok (location, some bytes) := by
  have hfile : wantsFolder path = false := by
    by_contra hwants
    have hdots := endsInDots_steps (by simpa using hwants)
    obtain ⟨inside, hinside⟩ := exists_folder_of_follow hdots (follow_of_locateWith h)
    cases hinside
  simp [slot, hfile, h]

end Machine

end HeaderStamp
