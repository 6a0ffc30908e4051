import HeaderStamp.Proofs.FileTree.Creation

namespace HeaderStamp.Machine

def bytes? (machine : Machine) (path : Text) : Option Bytes := (machine.read path).toOption

def Keeps (before after : Machine) : Prop :=
  ∀ path location, before.fileAt? path = some location → after.fileAt? path = some location

structure Written (path : Text) (bytes : Bytes) (before after : Machine) : Prop where
  cwd_eq : after.cwd = before.cwd
  keeps : before.Keeps after
  read_eq : after.read path = .ok bytes
  surface_eq : ∀ location, after.fileAt? path ≠ some location →
    (after.tree.at? location).map Node.surface = (before.tree.at? location).map Node.surface
  bytes?_eq : ∀ other, after.Apart other path → after.bytes? other = before.bytes? other

/-- A machine in which no path has other bytes but those that lead to the file of one of these. -/
structure ChangesOnly (paths : List Text) (before after : Machine) : Prop where
  keeps : before.Keeps after
  bytes?_eq : ∀ other, (∀ path ∈ paths, after.Apart other path) →
    after.bytes? other = before.bytes? other

variable {machine before after last : Machine} {path other : Text} {location : Location}
  {old : Option Bytes} {bytes : Bytes}

theorem bytes?_congr (h : after.read path = before.read path) :
    after.bytes? path = before.bytes? path := by
  rw [bytes?, bytes?, h]

theorem bytes?_eq_none (h : machine.fileAt? path = none) : machine.bytes? path = none := by
  rw [bytes?]
  cases hread : machine.read path with
  | error fault => rfl
  | ok bytes =>
    obtain ⟨location, hlocation⟩ := isSome_fileAt?_of_read hread
    rw [h] at hlocation
    cases hlocation

namespace Keeps

theorem refl (machine : Machine) : machine.Keeps machine := fun _ _ h ↦ h

theorem trans (h : before.Keeps after) (hlast : after.Keeps last) : before.Keeps last :=
  fun path location hplace ↦ hlast path location (h path location hplace)

theorem apart (h : before.Keeps after) (hapart : after.Apart path other) :
    before.Apart path other := by
  intro heq
  cases hplace : before.fileAt? path with
  | none => rfl
  | some location =>
    have hpath := h path location hplace
    have hother := h other location (heq.symm.trans hplace)
    have hnone := hapart (hpath.trans hother.symm)
    rw [hpath] at hnone
    cases hnone

end Keeps

namespace ChangesOnly

theorem refl (paths : List Text) (machine : Machine) : ChangesOnly paths machine machine :=
  ⟨.refl machine, fun _ _ ↦ rfl⟩

theorem trans {paths more : List Text} (h : ChangesOnly paths before after)
    (hlast : ChangesOnly more after last) : ChangesOnly (paths ++ more) before last where
  keeps := h.keeps.trans hlast.keeps
  bytes?_eq := by
    intro other hapart
    obtain ⟨hpaths, hmore⟩ := List.forall_mem_append.mp hapart
    rw [hlast.bytes?_eq other hmore]
    exact h.bytes?_eq other fun path hpath ↦ hlast.keeps.apart (hpaths path hpath)

end ChangesOnly

theorem Rewritten.keeps {places : Set Location} (h : Rewritten places before after) :
    before.Keeps after := fun path _ hplace ↦ (h.fileAt?_eq path).trans hplace

theorem Grown.keeps (h : Grown location before after) : before.Keeps after :=
  fun _ _ hplace ↦ h.fileAt?_eq_some hplace

theorem Grown.bytes?_eq (h : Grown location before after)
    (hne : after.fileAt? path ≠ some location) : after.bytes? path = before.bytes? path := by
  have hsame := (h.fileAt?_eq_or path).resolve_right hne
  cases hplace : before.fileAt? path with
  | none => rw [bytes?_eq_none hplace, bytes?_eq_none (hsame.trans hplace)]
  | some place => exact bytes?_congr (h.read_eq hplace)

theorem keeps_withFile (h : machine.slot path = .ok (location, old)) (bytes : Bytes) :
    machine.Keeps (machine.withFile location bytes) := by
  rcases slot_eq_ok h with ⟨before, rfl, hlocate⟩ | ⟨_, _, rfl, -, -⟩
  · exact (rewritten_withFile bytes (at?_of_locate hlocate)).keeps
  · exact (grown_of_slot_none h bytes).keeps

theorem bytes?_withFile (h : machine.slot path = .ok (location, old)) (bytes : Bytes)
    (hne : (machine.withFile location bytes).fileAt? other ≠ some location) :
    (machine.withFile location bytes).bytes? other = machine.bytes? other := by
  rcases slot_eq_ok h with ⟨before, rfl, hlocate⟩ | ⟨_, _, rfl, -, -⟩
  · have hrewritten := rewritten_withFile bytes (at?_of_locate hlocate)
    rw [hrewritten.fileAt?_eq] at hne
    refine bytes?_congr (hrewritten.read_eq ?_)
    rintro place hplace rfl
    exact hne hplace
  · exact (grown_of_slot_none h bytes).bytes?_eq hne

theorem written_of_write (h : machine.write path bytes = .ok after) :
    Written path bytes machine after := by
  cases hslot : machine.slot path with
  | error fault =>
    rw [write, hslot] at h
    cases h
  | ok found =>
    obtain ⟨location, old⟩ := found
    rw [write, hslot] at h
    cases h
    have hplace := fileAt?_withFile hslot bytes
    have hroom := hasRoom_of_slot hslot
    refine ⟨rfl, keeps_withFile hslot bytes, ?_, ?_, ?_⟩
    · obtain ⟨found, hfound, hread⟩ := exists_read_of_fileAt? hplace
      rw [withFile, hroom.at?_putAt_self] at hfound
      cases hfound
      exact hread
    · intro other hne
      have hother : other ≠ location := by
        rintro rfl
        exact hne hplace
      rw [hroom.surface_at?_putAt, if_neg hother]
    · intro other hapart
      exact bytes?_withFile hslot bytes fun heq ↦ hapart.ne_of_fileAt? hplace _ heq rfl

end HeaderStamp.Machine
