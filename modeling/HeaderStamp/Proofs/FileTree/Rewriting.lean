import HeaderStamp.Collector
import HeaderStamp.Proofs.FileTree.Resolution
import Mathlib.Data.Set.Basic

namespace HeaderStamp.Machine

def fileAt? (machine : Machine) (path : Text) : Option Location :=
  match machine.locate path with
  | .ok (.present location (.file _)) => some location
  | _ => none

/-- Two paths that do not lead to one and the same file. -/
def Apart (machine : Machine) (p q : Text) : Prop :=
  machine.fileAt? p = machine.fileAt? q → machine.fileAt? p = none

instance (machine : Machine) (p q : Text) : Decidable (machine.Apart p q) :=
  inferInstanceAs (Decidable (_ → _))

theorem Apart.symm {machine : Machine} {p q : Text} (h : machine.Apart p q) : machine.Apart q p :=
  fun heq ↦ heq.trans (h heq.symm)

theorem Apart.ne_of_fileAt? {machine : Machine} {p q : Text} {location : Location}
    (h : machine.Apart p q) (hq : machine.fileAt? q = some location) :
    ∀ place, machine.fileAt? p = some place → place ≠ location := by
  rintro place hp rfl
  have hnone := h (hp.trans hq.symm)
  rw [hp] at hnone
  cases hnone

def places (machine : Machine) (paths : List Text) : Set Location :=
  fun location ↦ ∃ path ∈ paths, machine.fileAt? path = some location

theorem notMem_places {machine : Machine} {p : Text} {paths : List Text}
    (h : ∀ q ∈ paths, machine.Apart p q) :
    ∀ location, machine.fileAt? p = some location → location ∉ machine.places paths := by
  rintro location hp ⟨q, hq, hfile⟩
  exact (h q hq).ne_of_fileAt? hfile location hp rfl

theorem fileAt?_eq_some_iff {machine : Machine} {path : Text} {location : Location} :
    machine.fileAt? path = some location ↔
      ∃ bytes, machine.locate path = .ok (.present location (.file bytes)) := by
  rw [fileAt?]
  split
  · rename_i found bytes hlocate
    simp [hlocate]
  · rename_i hother
    constructor
    · intro h
      cases h
    · rintro ⟨bytes, hlocate⟩
      exact absurd hlocate (hother location bytes)

theorem exists_read_of_fileAt? {machine : Machine} {path : Text} {location : Location}
    (h : machine.fileAt? path = some location) :
    ∃ bytes, machine.tree.at? location = some (.file bytes) ∧ machine.read path = .ok bytes := by
  obtain ⟨bytes, hlocate⟩ := fileAt?_eq_some_iff.mp h
  exact ⟨bytes, at?_of_locate hlocate, by rw [read, hlocate]⟩

theorem isSome_fileAt?_of_read {machine : Machine} {path : Text} {bytes : Bytes}
    (h : machine.read path = .ok bytes) : ∃ location, machine.fileAt? path = some location := by
  rw [read] at h
  split at h
  · rename_i location found hlocate
    exact ⟨location, fileAt?_eq_some_iff.mpr ⟨found, hlocate⟩⟩
  all_goals cases h

theorem fileAt?_eq_outline (machine : Machine) (path : Text) :
    machine.fileAt? path =
      match (machine.locate path).map Place.outline with
      | .ok (.present location (.file _)) => some location
      | _ => none := by
  rw [fileAt?]
  rcases machine.locate path with fault | ⟨location, node⟩ | ⟨folder, name⟩
  · rfl
  · cases node <;> rfl
  · rfl

theorem canonical?_eq_outline (machine : Machine) (path : Text) :
    machine.canonical? path =
      match (machine.locate path).map Place.outline with
      | .ok (.present location _) => some (locationText location)
      | _ => none := by
  rw [canonical?]
  rcases machine.locate path with fault | ⟨location, node⟩ | ⟨folder, name⟩ <;> rfl

theorem absolute_congr {before after : Machine} (h : after.cwd = before.cwd) (path : Text) :
    after.absolute path = before.absolute path := by
  rw [absolute, absolute, cwdText, cwdText, h]

/-- How a path without a file at its end is refused depends on where it leads only. -/
theorem read_of_fileAt?_eq_none {machine : Machine} {path : Text}
    (h : machine.fileAt? path = none) :
    machine.read path =
      match (machine.locate path).map Place.outline with
      | .ok (.present _ _) => .error .isDirectory
      | .ok (.absent _ _) => .error .notFound
      | .error fault => .error fault := by
  rw [fileAt?] at h
  rw [read]
  rcases hplace : machine.locate path with fault | ⟨location, node⟩ | ⟨folder, name⟩
  · rfl
  · cases node with
    | file bytes => simp [hplace] at h
    | link target => rfl
    | folder inside => rfl
  · rfl

/-- Two machines that differ in the bytes of the files at these locations at most. -/
structure Rewritten (places : Set Location) (before after : Machine) : Prop where
  cwd_eq : after.cwd = before.cwd
  kind_eq : after.tree.kind? = before.tree.kind?
  surface_eq : ∀ location ∉ places,
    (after.tree.at? location).map Node.surface = (before.tree.at? location).map Node.surface

namespace Rewritten

variable {places more : Set Location} {before after last : Machine} {path : Text}

theorem refl (places : Set Location) (machine : Machine) : Rewritten places machine machine :=
  ⟨rfl, rfl, fun _ _ ↦ rfl⟩

theorem trans (h : Rewritten places before after) (hlast : Rewritten places after last) :
    Rewritten places before last where
  cwd_eq := hlast.cwd_eq.trans h.cwd_eq
  kind_eq := hlast.kind_eq.trans h.kind_eq
  surface_eq := fun location hl ↦
    (hlast.surface_eq location hl).trans (h.surface_eq location hl)

theorem mono (h : Rewritten places before after) (hmore : places ⊆ more) :
    Rewritten more before after :=
  ⟨h.cwd_eq, h.kind_eq, fun location hl ↦ h.surface_eq location fun hm ↦ hl (hmore hm)⟩

theorem outline_locate (h : Rewritten places before after) (path : Text) :
    (after.locate path).map Place.outline = (before.locate path).map Place.outline :=
  Machine.outline_locate h.cwd_eq h.kind_eq path

theorem fileAt?_eq (h : Rewritten places before after) (path : Text) :
    after.fileAt? path = before.fileAt? path := by
  rw [fileAt?_eq_outline, fileAt?_eq_outline, h.outline_locate]

theorem canonical?_eq (h : Rewritten places before after) (path : Text) :
    after.canonical? path = before.canonical? path := by
  rw [canonical?_eq_outline, canonical?_eq_outline, h.outline_locate]

theorem apart_iff (h : Rewritten places before after) (p q : Text) :
    after.Apart p q ↔ before.Apart p q := by
  rw [Apart, Apart, h.fileAt?_eq, h.fileAt?_eq]

theorem places_eq (h : Rewritten places before after) (paths : List Text) :
    after.places paths = before.places paths := by
  funext location
  simp only [Machine.places, h.fileAt?_eq]

theorem relative_eq (h : Rewritten places before after) (path root : Text) :
    after.relative path root = before.relative path root := by
  simp only [relative, absolute_congr h.cwd_eq, h.canonical?_eq]

theorem at?_eq_file (h : Rewritten places before after) {location : Location}
    (hl : location ∉ places) {bytes : Bytes} (hat : before.tree.at? location = some (.file bytes)) :
    after.tree.at? location = some (.file bytes) := by
  have hsurface := h.surface_eq location hl
  rw [hat, Option.map_some] at hsurface
  obtain ⟨node, hnode, hfile⟩ := Option.map_eq_some_iff.mp hsurface
  rw [hnode, Node.surface_file.mp hfile]

theorem read_eq (h : Rewritten places before after)
    (hl : ∀ location, before.fileAt? path = some location → location ∉ places) :
    after.read path = before.read path := by
  cases hb : before.fileAt? path with
  | none =>
    have ha := (h.fileAt?_eq path).trans hb
    rw [read_of_fileAt?_eq_none ha, read_of_fileAt?_eq_none hb, h.outline_locate]
  | some location =>
    have ha := (h.fileAt?_eq path).trans hb
    obtain ⟨old, hold, hread⟩ := exists_read_of_fileAt? hb
    obtain ⟨new, hnew, hreadNew⟩ := exists_read_of_fileAt? ha
    rw [h.at?_eq_file (hl location hb) hold] at hnew
    cases hnew
    rw [hread, hreadNew]

end Rewritten

def withFile (machine : Machine) (location : Location) (bytes : Bytes) : Machine :=
  { machine with tree := machine.tree.putAt (.file bytes) location }

theorem rewritten_withFile {machine : Machine} {location : Location} {old : Bytes} (bytes : Bytes)
    (h : machine.tree.at? location = some (.file old)) :
    Rewritten {location} machine (machine.withFile location bytes) where
  cwd_eq := rfl
  kind_eq := by
    funext other
    rw [withFile, (Folder.HasRoom.of_file h).kind?_putAt]
    split
    · rename_i hother
      rw [hother, Folder.kind?, h]
      rfl
    · rfl
  surface_eq := fun other hother ↦ by
    rw [withFile, (Folder.HasRoom.of_file h).surface_at?_putAt,
      if_neg (fun heq : other = location ↦ hother heq)]

theorem write_of_fileAt? {machine : Machine} {path : Text} {location : Location}
    (h : machine.fileAt? path = some location) (bytes : Bytes) :
    machine.write path bytes = .ok (machine.withFile location bytes) := by
  obtain ⟨old, hlocate⟩ := fileAt?_eq_some_iff.mp h
  rw [write, slot_of_locate hlocate]
  rfl

theorem exists_write_of_fileAt? {machine : Machine} {path : Text} {location : Location}
    (h : machine.fileAt? path = some location) (bytes : Bytes) :
    ∃ after, machine.write path bytes = .ok after ∧ Rewritten {location} machine after ∧
      after.read path = .ok bytes := by
  obtain ⟨old, hold, -⟩ := exists_read_of_fileAt? h
  have hrewritten := rewritten_withFile bytes hold
  refine ⟨_, write_of_fileAt? h bytes, hrewritten, ?_⟩
  obtain ⟨new, hnew, hread⟩ := exists_read_of_fileAt? ((hrewritten.fileAt?_eq path).trans h)
  rw [withFile, (Folder.HasRoom.of_file hold).at?_putAt_self bytes] at hnew
  cases hnew
  exact hread

end HeaderStamp.Machine
