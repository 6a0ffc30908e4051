import HeaderStamp.Diff.Log
import HeaderStamp.Proofs.FileTree.Creation

namespace HeaderStamp

namespace DiffSettings

/-- The machine with the file of comparisons made, if that is missing and can be made. -/
def opened (settings : DiffSettings) (machine : Machine) : Machine :=
  match settings.file with
  | none => machine
  | some file => (machine.append file []).toOption.getD machine

/-- A path that does not lead to the file of comparisons, and that is printed and read alike before
and after this file is made. -/
structure Aside (settings : DiffSettings) (machine : Machine) (root path : Text) : Prop where
  apart : ∀ file ∈ settings.file, (settings.opened machine).Apart path file
  relative_eq : (settings.opened machine).relative path root = machine.relative path root
  read_eq : (settings.opened machine).read path = machine.read path

/-- A machine that has been left as it was but for comparisons added to their file. -/
inductive Logged (settings : DiffSettings) (before : Machine) : Machine → Prop
  | unchanged : Logged settings before before
  | extended {file : Text} {location : Location} {old : Option Bytes} (bytes : Bytes) :
      settings.file = some file → before.slot file = .ok (location, old) →
      Logged settings before (before.withFile location bytes)

variable {settings : DiffSettings} {before machine after : Machine}
  {root path file : Text} {location : Location} {old : Option Bytes}

theorem opened_of_slot (hfile : settings.file = some file)
    (hslot : machine.slot file = .ok (location, old)) :
    settings.opened machine = machine.withFile location (old.getD []) := by
  rw [opened, hfile]
  dsimp only
  rw [Machine.append_of_slot hslot, List.append_nil]
  rfl

theorem fileAt?_opened (hfile : settings.file = some file)
    (hslot : machine.slot file = .ok (location, old)) :
    (settings.opened machine).fileAt? file = some location := by
  rw [opened_of_slot hfile hslot]
  exact Machine.fileAt?_withFile hslot _

namespace Logged

theorem save {label content new : Text} (h : settings.Logged before machine)
    (hsave : settings.save machine label content new = .ok after) :
    settings.Logged before after := by
  rw [DiffSettings.save] at hsave
  cases hfile : settings.file with
  | none =>
    rw [hfile] at hsave
    cases hsave
    exact h
  | some file =>
    rw [hfile] at hsave
    dsimp only at hsave
    cases h with
    | unchanged =>
      cases happend : before.append file (Utf8.encode (Diff.unified label content new)) with
      | error fault =>
        rw [happend] at hsave
        cases hsave
      | ok saved =>
        rw [happend] at hsave
        cases hsave
        obtain ⟨location, old, hslot, rfl⟩ := Machine.exists_slot_of_append happend
        exact .extended _ hfile hslot
    | extended bytes hsame hslot =>
      rw [hfile] at hsame
      cases hsame
      rw [Machine.append_withFile hslot] at hsave
      cases hsave
      exact .extended _ hfile hslot

theorem relative_eq (h : settings.Logged before after) (haside : settings.Aside before root path) :
    after.relative path root = before.relative path root := by
  cases h with
  | unchanged => rfl
  | extended bytes hfile hslot =>
    have hopened := haside.relative_eq
    rw [opened_of_slot hfile hslot] at hopened
    exact ((Machine.rewritten_of_slot hslot _ bytes).relative_eq path root).trans hopened

theorem read_eq (h : settings.Logged before after) (haside : settings.Aside before root path) :
    after.read path = before.read path := by
  cases h with
  | unchanged => rfl
  | @extended file location old bytes hfile hslot =>
    have hopened := haside.read_eq
    have hplace := fileAt?_opened hfile hslot
    have hapart := haside.apart file hfile
    rw [opened_of_slot hfile hslot] at hopened hplace hapart
    have hrewritten := Machine.rewritten_of_slot hslot (old.getD []) bytes
    exact (hrewritten.read_eq (hapart.ne_of_fileAt? hplace)).trans hopened

theorem cwd_eq (h : settings.Logged before after) : after.cwd = before.cwd := by
  cases h <;> rfl

theorem surface_eq (h : settings.Logged before after)
    (hl : ∀ file ∈ settings.file, (settings.opened before).fileAt? file ≠ some location) :
    (after.tree.at? location).map Node.surface = (before.tree.at? location).map Node.surface := by
  cases h with
  | unchanged => rfl
  | @extended file place old bytes hfile hslot =>
    have hne : location ≠ place := by
      rintro rfl
      exact hl file hfile (fileAt?_opened hfile hslot)
    rw [Machine.withFile, (Machine.hasRoom_of_slot hslot).surface_at?_putAt, if_neg hne]

end Logged

namespace Aside

end Aside

end DiffSettings

end HeaderStamp
