import HeaderStamp.Proofs.FileTree.Commuting
import HeaderStamp.Proofs.FileTree.Rewriting

namespace HeaderStamp

/-- Where a path leads once there is a new file at the location. -/
def Place.grow (location : Location) : Place → Place
  | .present found node => .present found node
  | .absent folder name =>
    if folder ++ [name] = location then .present location (.file []) else .absent folder name

namespace Machine

def Reach.grow (location : Location) : Reach → Reach
  | .arrived place => .arrived (place.grow location)
  | .atLink folder target rest => .atLink folder target rest
  | .refused fault => .refused fault

/-- Two machines of which the second one has one file more, at this location. -/
structure Grown (location : Location) (before after : Machine) : Prop where
  cwd_eq : after.cwd = before.cwd
  fresh : before.tree.at? location = none
  made : after.tree.kind? location = some (.file [])
  surface_eq : ∀ other ≠ location,
    (after.tree.at? other).map Node.surface = (before.tree.at? other).map Node.surface

theorem grown_withFile {machine : Machine} {location : Location} (bytes : Bytes)
    (hroom : machine.tree.HasRoom location) (hfresh : machine.tree.at? location = none) :
    Grown location machine (machine.withFile location bytes) where
  cwd_eq := rfl
  fresh := hfresh
  made := by rw [withFile, hroom.kind?_putAt, if_pos rfl]
  surface_eq := fun other hother ↦ by rw [withFile, hroom.surface_at?_putAt, if_neg hother]

namespace Grown

variable {location : Location} {before after : Machine} {path : Text}

theorem kind?_eq_of_ne (h : Grown location before after) {other : Location}
    (hne : other ≠ location) : after.tree.kind? other = before.tree.kind? other := by
  rw [Folder.kind?_eq_surface, Folder.kind?_eq_surface, h.surface_eq other hne]

theorem kind?_eq_some (h : Grown location before after) {other : Location} {node : Node}
    (hother : before.tree.at? other = some node) :
    after.tree.kind? other = some node.outline := by
  have hne : other ≠ location := by
    rintro rfl
    rw [h.fresh] at hother
    cases hother
  rw [h.kind?_eq_of_ne hne, Folder.kind?, hother]
  rfl

/-- A walk that is not refused goes the same way, to the new file if it stood before it. -/
theorem outline_advance (h : Grown location before after) (last : Bool) (here : Location)
    (steps : List Text) (hreach : ∀ fault, advance before.tree last here steps ≠ .refused fault) :
    (advance after.tree last here steps).outline =
      (advance before.tree last here steps).outline.grow location := by
  fun_induction advance before.tree last here steps with
  | case1 here node hat =>
    rw [outline_advance_nil, h.kind?_eq_some hat]
    rfl
  | case3 here rest inside hat ih =>
    rw [outline_advance_cons, h.kind?_eq_some hat]
    exact ih hreach
  | case4 here rest inside hat hdot ih =>
    rw [outline_advance_cons, h.kind?_eq_some hat]
    exact ih hreach
  | case5 here step inside hat hdot hparent hfind =>
    rw [outline_advance_cons, h.kind?_eq_some hat]
    simp only [Node.outline, if_neg hdot, if_neg hparent, if_pos]
    by_cases hnew : here ++ [step] = location
    · rw [hnew, h.made]
      dsimp only
      rw [outline_advance_nil, h.made]
      simp [Reach.outline, Reach.grow, Place.outline, Place.grow, hnew]
    · rw [h.kind?_eq_of_ne hnew, Folder.kind?, Folder.at?_concat hat, hfind]
      simp [Reach.outline, Reach.grow, Place.outline, Place.grow, hnew]
  | case7 here step rest inside hat hdot hparent target hfind hrest =>
    have hnext := h.kind?_eq_some ((Folder.at?_concat hat step).trans hfind)
    rw [outline_advance_cons, h.kind?_eq_some hat, hnext]
    simp only [Node.outline, if_neg hdot, if_neg hparent, if_pos hrest]
    rfl
  | case8 here step rest inside hat hdot hparent target hfind hrest =>
    have hnext := h.kind?_eq_some ((Folder.at?_concat hat step).trans hfind)
    rw [outline_advance_cons, h.kind?_eq_some hat, hnext]
    simp only [Node.outline, if_neg hdot, if_neg hparent, if_neg hrest]
    rfl
  | case9 here step rest inside hat hdot hparent node hlink hfind ih =>
    have hnext := h.kind?_eq_some ((Folder.at?_concat hat step).trans hfind)
    rw [outline_advance_cons, h.kind?_eq_some hat, hnext]
    simp only [Node.outline, if_neg hdot, if_neg hparent]
    cases node with
    | link target => exact absurd rfl (hlink target)
    | file bytes => exact ih hreach
    | folder below => exact ih hreach
  | case2 | case6 | case10 | case11 => exact absurd rfl (hreach _)

theorem outline_follow (h : Grown location before after) {last : Bool} {budget : Nat}
    {here : Location} {steps : List Text} {place : Place}
    (hplace : follow before.tree last budget here steps = .ok place) :
    (follow after.tree last budget here steps).map Place.outline =
      .ok (place.outline.grow location) := by
  fun_induction follow before.tree last budget here steps with
  | case1 budget here steps found harrived =>
    cases hplace
    have hreach := h.outline_advance last here steps (by simp [harrived])
    rw [outline_follow_eq, hreach, harrived]
    rfl
  | case5 here steps folder target rest hlink budget hne ih =>
    have hreach := h.outline_advance last here steps (by simp [hlink])
    rw [outline_follow_eq, hreach, hlink]
    simp only [Reach.outline, Reach.grow, if_neg hne]
    exact ih hplace
  | case2 | case3 | case4 => cases hplace

/-- A path that leads somewhere still leads there, or to the new file if it stood before it. -/
theorem outline_locate (h : Grown location before after) {place : Place}
    (hplace : before.locate path = .ok place) :
    (after.locate path).map Place.outline = .ok (place.outline.grow location) := by
  rw [locate, locateWith] at hplace ⊢
  rw [h.cwd_eq]
  by_cases hempty : path = []
  · rw [if_pos hempty] at hplace
    cases hplace
  · rw [if_neg hempty] at hplace ⊢
    exact h.outline_follow hplace

theorem fileAt?_eq_some (h : Grown location before after) {place : Location}
    (hplace : before.fileAt? path = some place) : after.fileAt? path = some place := by
  obtain ⟨bytes, hlocate⟩ := fileAt?_eq_some_iff.mp hplace
  rw [fileAt?_eq_outline, h.outline_locate hlocate]
  rfl

theorem canonical?_eq_some (h : Grown location before after) {text : Text}
    (htext : before.canonical? path = some text) : after.canonical? path = some text := by
  rw [canonical?] at htext
  split at htext
  · rename_i place node hlocate
    cases htext
    rw [canonical?_eq_outline, h.outline_locate hlocate]
    rfl
  · cases htext

theorem relative_eq (h : Grown location before after) {root : Text}
    (hfolder : (before.canonical?
      (Path.ofComponents (Path.components (before.absolute path)).dropLast)).isSome)
    (hroot : (before.canonical? (before.absolute root)).isSome) :
    after.relative path root = before.relative path root := by
  obtain ⟨folder, hfolder⟩ := Option.isSome_iff_exists.mp hfolder
  obtain ⟨base, hroot⟩ := Option.isSome_iff_exists.mp hroot
  simp only [relative, absolute_congr h.cwd_eq, hfolder, hroot, h.canonical?_eq_some hfolder,
    h.canonical?_eq_some hroot]

theorem read_eq (h : Grown location before after) {place : Location}
    (hplace : before.fileAt? path = some place) : after.read path = before.read path := by
  obtain ⟨old, hold, hread⟩ := exists_read_of_fileAt? hplace
  obtain ⟨new, hnew, hreadNew⟩ := exists_read_of_fileAt? (h.fileAt?_eq_some hplace)
  have hne : place ≠ location := by
    rintro rfl
    rw [h.fresh] at hold
    cases hold
  have hsurface := h.surface_eq place hne
  rw [hold, hnew] at hsurface
  cases hsurface
  rw [hread, hreadNew]

theorem outline_advance_made (h : Grown location before after) (last : Bool) (steps : List Text) :
    (advance after.tree last location steps).outline =
      if steps = [] then .arrived (.present location (.file [])) else .refused .notDirectory := by
  cases steps with
  | nil => rw [outline_advance_nil, h.made, if_pos rfl]
  | cons step rest => rw [outline_advance_cons, h.made, if_neg (List.cons_ne_nil _ _)]

/-- A walk in the larger tree is refused, ends at the new file or goes the same way without it. -/
theorem outline_advance_back (h : Grown location before after) (last : Bool) (here : Location)
    (steps : List Text) :
    (∃ fault, (advance after.tree last here steps).outline = .refused fault) ∨
      (advance after.tree last here steps).outline = .arrived (.present location (.file [])) ∨
      (advance before.tree last here steps).outline =
        (advance after.tree last here steps).outline := by
  induction steps generalizing here with
  | nil =>
    by_cases hhere : here = location
    · rw [hhere, h.outline_advance_made, if_pos rfl]
      exact .inr (.inl rfl)
    · rw [outline_advance_nil, outline_advance_nil, h.kind?_eq_of_ne hhere]
      exact .inr (.inr rfl)
  | cons step rest ih =>
    by_cases hhere : here = location
    · rw [hhere, h.outline_advance_made, if_neg (List.cons_ne_nil _ _)]
      exact .inl ⟨_, rfl⟩
    · rw [outline_advance_cons, outline_advance_cons, h.kind?_eq_of_ne hhere]
      rcases before.tree.kind? here with _ | bytes | target | inside
      · exact .inr (.inr rfl)
      · exact .inr (.inr rfl)
      · exact .inr (.inr rfl)
      · dsimp only
        by_cases hdot : step = ['.']
        · rw [if_pos hdot, if_pos hdot]
          exact ih here
        · rw [if_neg hdot, if_neg hdot]
          by_cases hparent : step = ['.', '.']
          · rw [if_pos hparent, if_pos hparent]
            exact ih here.dropLast
          · rw [if_neg hparent, if_neg hparent]
            by_cases hnew : here ++ [step] = location
            · rw [hnew, h.made]
              dsimp only
              rw [h.outline_advance_made]
              split
              · exact .inr (.inl rfl)
              · exact .inl ⟨_, rfl⟩
            · rw [h.kind?_eq_of_ne hnew]
              rcases before.tree.kind? (here ++ [step]) with _ | bytes | target | inside
              · exact .inr (.inr rfl)
              · exact ih _
              · exact .inr (.inr rfl)
              · exact ih _

theorem outline_follow_back (h : Grown location before after) (last : Bool) (budget : Nat)
    (here : Location) (steps : List Text) :
    (∃ fault, (follow after.tree last budget here steps).map Place.outline = .error fault) ∨
      (follow after.tree last budget here steps).map Place.outline =
        .ok (.present location (.file [])) ∨
      (follow before.tree last budget here steps).map Place.outline =
        (follow after.tree last budget here steps).map Place.outline := by
  induction budget generalizing here steps with
  | zero =>
    rw [outline_follow_eq, outline_follow_eq]
    rcases h.outline_advance_back last here steps with ⟨fault, hfault⟩ | hnew | hsame
    · rw [hfault]
      exact .inl ⟨fault, rfl⟩
    · rw [hnew]
      exact .inr (.inl rfl)
    · rw [hsame]
      exact .inr (.inr rfl)
  | succ budget ih =>
    rw [outline_follow_eq, outline_follow_eq _ _ (budget + 1)]
    rcases h.outline_advance_back last here steps with ⟨fault, hfault⟩ | hnew | hsame
    · rw [hfault]
      exact .inl ⟨fault, rfl⟩
    · rw [hnew]
      exact .inr (.inl rfl)
    · rw [hsame]
      rcases (advance after.tree last here steps).outline with
        place | ⟨folder, target, rest⟩ | fault
      · exact .inr (.inr rfl)
      · dsimp only
        split
        · exact .inr (.inr rfl)
        · exact ih _ _
      · exact .inr (.inr rfl)

/-- A path leads to a file where it did so before, unless it leads to the new one. -/
theorem fileAt?_eq_or (h : Grown location before after) (path : Text) :
    after.fileAt? path = before.fileAt? path ∨ after.fileAt? path = some location := by
  cases hplace : before.fileAt? path with
  | some place => exact .inl (h.fileAt?_eq_some hplace)
  | none =>
    rw [fileAt?_eq_outline, locate, locateWith] at hplace ⊢
    rw [h.cwd_eq]
    by_cases hempty : path = []
    · rw [if_pos hempty]
      exact .inl rfl
    · rw [if_neg hempty] at hplace ⊢
      rcases h.outline_follow_back true linkLimit
        (if Path.isAbsolute path then [] else before.cwd) (steps path) with
        ⟨fault, hfault⟩ | hnew | hsame
      · rw [hfault]
        exact .inl rfl
      · rw [hnew]
        exact .inr rfl
      · rw [← hsame]
        exact .inl hplace

end Grown

theorem slot_eq_ok {machine : Machine} {path : Text} {location : Location} {old : Option Bytes}
    (h : machine.slot path = .ok (location, old)) :
    (∃ bytes, old = some bytes ∧ machine.locate path = .ok (.present location (.file bytes))) ∨
      ∃ folder name, old = none ∧ location = folder ++ [name] ∧
        machine.locate path = .ok (.absent folder name) := by
  rw [slot] at h
  cases hwants : wantsFolder path with
  | true =>
    simp only [hwants] at h
    split at h <;> cases h
  | false =>
    simp only [hwants] at h
    split at h
    · cases h
    · rename_i place hlocate
      cases place with
      | absent folder name =>
        cases h
        exact .inr ⟨folder, name, rfl, rfl, hlocate⟩
      | present found node =>
        cases node with
        | file bytes =>
          cases h
          exact .inl ⟨bytes, rfl, hlocate⟩
        | link target => cases h
        | folder inside => cases h

theorem withFile_withFile (machine : Machine) (location : Location) (first second : Bytes) :
    (machine.withFile location first).withFile location second =
      machine.withFile location second := by
  rw [withFile, withFile, withFile, Folder.putAt_putAt]

section Slot

variable {machine : Machine} {path : Text} {location : Location} {old : Option Bytes}

theorem hasRoom_of_slot (h : machine.slot path = .ok (location, old)) :
    machine.tree.HasRoom location := by
  rcases slot_eq_ok h with ⟨bytes, -, hlocate⟩ | ⟨folder, name, -, rfl, hlocate⟩
  · exact .of_file (at?_of_locate hlocate)
  · obtain ⟨inside, hinside, hname⟩ := exists_folder_of_locate_absent hlocate
    exact .of_absent hinside hname

theorem grown_of_slot_none (h : machine.slot path = .ok (location, none)) (bytes : Bytes) :
    Grown location machine (machine.withFile location bytes) := by
  refine grown_withFile bytes (hasRoom_of_slot h) ?_
  rcases slot_eq_ok h with ⟨_, hsome, -⟩ | ⟨folder, name, -, rfl, hlocate⟩
  · cases hsome
  · obtain ⟨inside, hinside, hname⟩ := exists_folder_of_locate_absent hlocate
    rw [Folder.at?_concat hinside, hname]

theorem fileAt?_withFile (h : machine.slot path = .ok (location, old)) (bytes : Bytes) :
    (machine.withFile location bytes).fileAt? path = some location := by
  rcases slot_eq_ok h with ⟨before, rfl, hlocate⟩ | ⟨folder, name, rfl, hlocation, hlocate⟩
  · rw [(rewritten_withFile bytes (at?_of_locate hlocate)).fileAt?_eq path]
    exact fileAt?_eq_some_iff.mpr ⟨before, hlocate⟩
  · rw [fileAt?_eq_outline, (grown_of_slot_none h bytes).outline_locate hlocate]
    simp [Place.outline, Place.grow, hlocation]

theorem slot_withFile (h : machine.slot path = .ok (location, old)) (bytes : Bytes) :
    (machine.withFile location bytes).slot path = .ok (location, some bytes) := by
  obtain ⟨found, hlocate⟩ := fileAt?_eq_some_iff.mp (fileAt?_withFile h bytes)
  have hfound := at?_of_locate hlocate
  rw [withFile, (hasRoom_of_slot h).at?_putAt_self bytes] at hfound
  cases hfound
  exact slot_of_locate hlocate

theorem append_of_slot (h : machine.slot path = .ok (location, old)) (bytes : Bytes) :
    machine.append path bytes = .ok (machine.withFile location (old.getD [] ++ bytes)) := by
  rw [append, h]
  rfl

theorem exists_slot_of_append {bytes : Bytes} {after : Machine}
    (h : machine.append path bytes = .ok after) :
    ∃ location old, machine.slot path = .ok (location, old) ∧
      after = machine.withFile location (old.getD [] ++ bytes) := by
  cases hslot : machine.slot path with
  | error fault =>
    rw [append, hslot] at h
    cases h
  | ok found =>
    rw [append_of_slot hslot] at h
    cases h
    exact ⟨found.1, found.2, rfl, rfl⟩

theorem append_withFile (h : machine.slot path = .ok (location, old)) (bytes more : Bytes) :
    (machine.withFile location bytes).append path more =
      .ok (machine.withFile location (bytes ++ more)) := by
  rw [append_of_slot (slot_withFile h bytes), withFile_withFile]
  rfl

theorem rewritten_of_slot (h : machine.slot path = .ok (location, old)) (first second : Bytes) :
    Rewritten {location} (machine.withFile location first) (machine.withFile location second) := by
  have hfirst := (hasRoom_of_slot h).at?_putAt_self first
  have hrewritten : Rewritten {location} (machine.withFile location first)
      ((machine.withFile location first).withFile location second) :=
    rewritten_withFile second hfirst
  rwa [withFile_withFile] at hrewritten

end Slot

end Machine

end HeaderStamp
