import HeaderStamp.Config.Decode
import HeaderStamp.Proofs.Attempts
import HeaderStamp.Proofs.Paths.Order
import HeaderStamp.Proofs.Toml.Keys
import Mathlib.Data.List.Pairwise
import Mathlib.Tactic.MkIffOfInductiveProp

namespace HeaderStamp

namespace Toml

def Value.text? : Value → Option Text
  | .string t => some t
  | _ => none

def Value.someText? (value : Value) : Option (Option Text) := value.text?.map some

def Value.texts? : Value → Option (List Text)
  | .array items => items.mapM text?
  | .tables items => items.mapM text?
  | _ => none

def Value.fields? : Value → Option Fields
  | .table _ fields => some fields
  | _ => none

def Fields.table? (fields : Fields) (key : Text) : Option Fields :=
  (fields.lookup key).bind Value.fields?

def Fields.text? (fields : Fields) (key : Text) : Option Text :=
  (fields.lookup key).bind Value.text?

end Toml

namespace Config

open Toml (Value Fields)

/-- A field of a record: the key it stands under, what the values of its kind are, and how the
record gives and takes it. -/
structure Slot (α : Type) where
  key : String
  {β : Type}
  view : Value → Option β
  get : α → β
  put : α → β → α

@[mk_iff]
structure Slot.Apart {α : Type} (s s' : Slot α) : Prop where
  key_ne : s.key ≠ s'.key
  left : ∀ record b, s.get (s'.put record b) = s.get record
  right : ∀ record b, s'.get (s.put record b) = s'.get record

/-- Each field of a record gives what it took, whatever the other fields took. -/
structure Lawful {α : Type} (slots : List (Slot α)) : Prop where
  get_put : ∀ slot ∈ slots, ∀ record b, slot.get (slot.put record b) = b
  apart : slots.Pairwise Slot.Apart

structure Slot.SetBy {α : Type} (slot : Slot α) (setter : α → Value → Decoded α) : Prop where
  eq_ok_iff : ∀ {record changed value}, setter record value = .ok changed ↔
    ∃ b, slot.view value = some b ∧ slot.put record b = changed

/-- A key is set by putting what the value is into the field of the key, which fails for other keys
and for values of another kind. -/
structure SetBy {α : Type} (slots : List (Slot α)) (set : α → Text → Value → Decoded α) : Prop where
  eq_ok_iff : ∀ {record changed key value}, set record key value = .ok changed ↔
    ∃ slot ∈ slots, key = slot.key.toList ∧
      ∃ b, slot.view value = some b ∧ slot.put record b = changed

def Fits {α : Type} (slots : List (Slot α)) (fields : Fields) : Prop :=
  ∀ field ∈ fields, ∃ slot ∈ slots, field.1 = slot.key.toList ∧ (slot.view field.2).isSome

instance {α : Type} (slots : List (Slot α)) (fields : Fields) : Decidable (Fits slots fields) :=
  inferInstanceAs (Decidable (∀ field ∈ fields, ∃ slot ∈ slots, _ ∧ _))

/-- The record has the table's value in the field, or that of the other record where the table has
no such key. -/
def Slot.Overridden {α : Type} (slot : Slot α) (fields : Fields) (start record : α) : Prop :=
  match fields.lookup slot.key.toList with
  | some value => slot.view value = some (slot.get record)
  | none => slot.get record = slot.get start

def Overrides {α : Type} (slots : List (Slot α)) (fields : Fields) (start record : α) : Prop :=
  ∀ slot ∈ slots, slot.Overridden fields start record

section Lookup

variable {β : Type} {l l' : List (Text × β)} {key : Text} {b : β}

theorem lookup_cons_of_ne {k : Text} (h : key ≠ k) (b : β) (l : List (Text × β)) :
    ((k, b) :: l).lookup key = l.lookup key := by
  rw [List.lookup_cons, beq_false_of_ne h]

theorem lookup_eq_none_of_notMem (h : key ∉ l.map Prod.fst) : l.lookup key = none := by
  rw [List.lookup_eq_none_iff]
  intro field hmem
  exact bne_iff_ne.mpr fun heq ↦ h (heq ▸ List.mem_map_of_mem hmem)

theorem lookup_eq_some_iff_mem (hnodup : (l.map Prod.fst).Nodup) :
    l.lookup key = some b ↔ (key, b) ∈ l := by
  induction l with
  | nil => simp
  | cons first rest ih =>
    obtain ⟨k, c⟩ := first
    obtain ⟨hfresh, hrest⟩ := List.nodup_cons.mp hnodup
    rw [List.mem_cons, ← ih hrest]
    by_cases hk : key = k
    · subst hk
      rw [List.lookup_cons_self, lookup_eq_none_of_notMem hfresh]
      simp [eq_comm]
    · rw [lookup_cons_of_ne hk]
      simp [hk]

theorem lookup_eq_of_perm (hnodup : (l.map Prod.fst).Nodup) (h : l'.Perm l) (key : Text) :
    l'.lookup key = l.lookup key := by
  have hnodup' : (l'.map Prod.fst).Nodup := (h.map Prod.fst).nodup_iff.mpr hnodup
  ext b
  rw [lookup_eq_some_iff_mem hnodup', lookup_eq_some_iff_mem hnodup, h.mem_iff]

def Keywise {γ : Type} (R : β → γ → Prop) : List (Text × β) → List (Text × γ) → Prop :=
  List.Forall₂ fun a b ↦ a.1 = b.1 ∧ R a.2 b.2

variable {γ : Type} {R : β → γ → Prop} {m : List (Text × γ)}

theorem Keywise.map_fst_eq (h : Keywise R l m) : l.map Prod.fst = m.map Prod.fst := by
  induction h with
  | nil => rfl
  | cons hfirst _ ih => rw [List.map_cons, List.map_cons, hfirst.1, ih]

theorem Keywise.rel_lookup (h : Keywise R l m) (key : Text) :
    Option.Rel R (l.lookup key) (m.lookup key) := by
  induction h with
  | nil => exact .none
  | @cons a b l m hfirst _ ih =>
    obtain ⟨k, x⟩ := a
    obtain ⟨k', y⟩ := b
    obtain ⟨rfl, hxy⟩ := hfirst
    by_cases hkey : key = k
    · subst hkey
      rw [List.lookup_cons_self, List.lookup_cons_self]
      exact .some hxy
    · rwa [lookup_cons_of_ne hkey, lookup_cons_of_ne hkey]

end Lookup

theorem perm_inOrder (fields : Fields) : (inOrder fields).Perm fields :=
  List.mergeSort_perm fields _

theorem pairwise_inOrder (fields : Fields) :
    (inOrder fields).Pairwise fun a b ↦ Text.le a.1 b.1 = true := by
  refine List.pairwise_mergeSort ?_ ?_ fields
  · exact fun a b c hab hbc ↦ Text.arranges_le.trans a.1 b.1 c.1 hab hbc
  · intro a b
    rw [Bool.or_eq_true]
    by_cases heq : a.1 = b.1
    · rw [heq, Text.le_eq_lexLe]
      exact .inl (lexLe_refl _ _)
    · exact Text.arranges_le.total a.1 b.1 heq

theorem toOption_textOf (value : Value) : (textOf value).toOption = value.text? := by
  cases value <;> rfl

theorem toOption_textsOf (value : Value) : (textsOf value).toOption = value.texts? := by
  cases value with
  | array items => simp only [textsOf, itemsOf?, toOption_mapM, toOption_textOf, Value.texts?]
  | tables items => simp only [textsOf, itemsOf?, toOption_mapM, toOption_textOf, Value.texts?]
  | _ => rfl

section Fold

variable {α : Type} {set : α → Text → Value → Decoded α} {slots : List (Slot α)}
  {slot slot' : Slot α} {fields : Fields} {key : Text} {value : Value} {start record changed : α}

instance : Std.Symm (Slot.Apart (α := α)) :=
  ⟨fun _ _ h ↦ ⟨h.key_ne.symm, h.right, h.left⟩⟩

theorem setBy_read {β : Type} {name : String} {read : Value → Decoded β} {view : Value → Option β}
    {get : α → β} {put : α → β → α} (h : ∀ value, (read value).toOption = view value) :
    Slot.SetBy ⟨name, view, get, put⟩ fun record value ↦ (read value).map (put record) where
  eq_ok_iff := by simp only [map_eq_ok_iff, ← h, toOption_eq_some_iff, implies_true]

theorem setBy_someText {name : String} {get : α → Option Text} {put : α → Option Text → α} :
    Slot.SetBy ⟨name, Value.someText?, get, put⟩ fun record value ↦
      (textOf value).map fun t ↦ put record (some t) where
  eq_ok_iff := by simp [map_eq_ok_iff, Value.someText?, ← toOption_textOf, toOption_eq_some_iff]

theorem setBy_nil {known : List String} :
    SetBy ([] : List (Slot α)) fun _ key _ ↦ unknownField key known where
  eq_ok_iff := by simp [unknownField]

theorem SetBy.cons (h : SetBy slots set) {setter : α → Value → Decoded α}
    (hslot : slot.SetBy setter) (hkey : ∀ other ∈ slots, slot.key ≠ other.key) :
    SetBy (slot :: slots) fun record key value ↦
      if key = slot.key.toList then setter record value else set record key value where
  eq_ok_iff := by
    intro record changed key value
    simp only [List.mem_cons, exists_eq_or_imp]
    by_cases heq : key = slot.key.toList
    · rw [if_pos heq, hslot.eq_ok_iff, and_iff_right heq, or_iff_left]
      rintro ⟨other, hother, hagain, -⟩
      exact hkey other hother (String.toList_inj.mp (heq.symm.trans hagain))
    · rw [if_neg heq, h.eq_ok_iff]
      simp only [heq, false_and, false_or]

theorem Lawful.eq_of_key_eq (h : Lawful slots) (hslot : slot ∈ slots) (hslot' : slot' ∈ slots)
    (hkey : slot.key = slot'.key) : slot = slot' := by
  by_contra hne
  exact (h.apart.forall hslot hslot' hne).key_ne hkey

theorem Lawful.get_put_of_key_ne (h : Lawful slots) (hslot : slot ∈ slots)
    (hslot' : slot' ∈ slots) (hkey : slot.key ≠ slot'.key) (record : α) (b : slot'.β) :
    slot.get (slot'.put record b) = slot.get record := by
  have hne : slot ≠ slot' := fun heq ↦ hkey (heq ▸ rfl)
  exact (h.apart.forall hslot hslot' hne).left record b

theorem SetBy.exists_ok_iff (h : SetBy slots set) :
    (∃ changed, set record key value = .ok changed) ↔
      ∃ slot ∈ slots, key = slot.key.toList ∧ (slot.view value).isSome := by
  simp only [h.eq_ok_iff, Option.isSome_iff_exists]
  constructor
  · rintro ⟨changed, slot, hslot, hkey, b, hview, -⟩
    exact ⟨slot, hslot, hkey, b, hview⟩
  · rintro ⟨slot, hslot, hkey, b, hview⟩
    exact ⟨_, slot, hslot, hkey, b, hview, rfl⟩

theorem SetBy.view_eq (h : SetBy slots set) (hlaw : Lawful slots) (hslot : slot ∈ slots)
    (hset : set record slot.key.toList value = .ok changed) :
    slot.view value = some (slot.get changed) := by
  obtain ⟨slot', hslot', hkey, b, hview, rfl⟩ := h.eq_ok_iff.mp hset
  obtain rfl := hlaw.eq_of_key_eq hslot hslot' (String.toList_inj.mp hkey)
  rw [hview, hlaw.get_put _ hslot]

theorem SetBy.get_eq (h : SetBy slots set) (hlaw : Lawful slots) (hslot : slot ∈ slots)
    (hne : slot.key.toList ≠ key) (hset : set record key value = .ok changed) :
    slot.get changed = slot.get record := by
  obtain ⟨slot', hslot', rfl, b, -, rfl⟩ := h.eq_ok_iff.mp hset
  exact hlaw.get_put_of_key_ne hslot hslot' (fun heq ↦ hne (congrArg String.toList heq)) record b

theorem foldlM_cons_eq_ok_iff {field : Text × Value} :
    (field :: fields).foldlM (fun record (key, value) ↦ set record key value) start = .ok record ↔
      ∃ next, set start field.1 field.2 = .ok next ∧
        fields.foldlM (fun record (key, value) ↦ set record key value) next = .ok record := by
  rw [List.foldlM_cons]
  cases hset : set start field.1 field.2 with
  | error e => simp [hset, bind, Except.bind]
  | ok next => simp [hset, bind, Except.bind]

/-- Whether a run over the fields succeeds is told by each of them alone. -/
theorem SetBy.exists_foldlM_iff (h : SetBy slots set) :
    (∃ record, fields.foldlM (fun record (key, value) ↦ set record key value) start = .ok record) ↔
      Fits slots fields := by
  induction fields generalizing start with
  | nil => simp [Fits, pure, Except.pure]
  | cons field rest ih =>
    constructor
    · rintro ⟨record, hrun⟩
      obtain ⟨next, hset, hrun⟩ := foldlM_cons_eq_ok_iff.mp hrun
      exact List.forall_mem_cons.mpr ⟨h.exists_ok_iff.mp ⟨next, hset⟩, ih.mp ⟨record, hrun⟩⟩
    · intro hfits
      obtain ⟨hfirst, hrest⟩ := List.forall_mem_cons.mp hfits
      obtain ⟨next, hset⟩ : ∃ next, set start field.1 field.2 = .ok next :=
        h.exists_ok_iff.mpr hfirst
      obtain ⟨record, hrun⟩ := @ih next |>.mpr hrest
      exact ⟨record, foldlM_cons_eq_ok_iff.mpr ⟨next, hset, hrun⟩⟩

theorem SetBy.overrides_of_foldlM (h : SetBy slots set) (hlaw : Lawful slots)
    (hnodup : (fields.map Prod.fst).Nodup)
    (hrun : fields.foldlM (fun record (key, value) ↦ set record key value) start = .ok record) :
    Overrides slots fields start record := by
  intro slot hslot
  induction fields generalizing start with
  | nil =>
    cases hrun
    rfl
  | cons field rest ih =>
    obtain ⟨key, value⟩ := field
    obtain ⟨hfresh, hrest⟩ := List.nodup_cons.mp hnodup
    obtain ⟨next, hset, hrun⟩ := foldlM_cons_eq_ok_iff.mp hrun
    have hlater := ih hrest hrun
    rw [Slot.Overridden] at hlater ⊢
    by_cases hkey : slot.key.toList = key
    · subst hkey
      rw [lookup_eq_none_of_notMem hfresh] at hlater
      rw [List.lookup_cons_self]
      dsimp only at hlater ⊢
      rw [hlater]
      exact h.view_eq hlaw hslot hset
    · rw [lookup_cons_of_ne hkey, ← h.get_eq hlaw hslot hkey hset]
      exact hlater

theorem SetBy.exists_fold_iff (h : SetBy slots set) :
    (∃ record, fold set start fields = .ok record) ↔ Fits slots fields := by
  rw [fold, h.exists_foldlM_iff, Fits, Fits]
  simp only [(perm_inOrder fields).mem_iff]

theorem SetBy.overrides_of_fold (h : SetBy slots set) (hlaw : Lawful slots)
    (hnodup : (fields.map Prod.fst).Nodup) (hfold : fold set start fields = .ok record) :
    Overrides slots fields start record := by
  have hperm := perm_inOrder fields
  have hinOrder := h.overrides_of_foldlM hlaw ((hperm.map Prod.fst).nodup_iff.mpr hnodup) hfold
  intro slot hslot
  have hslot := hinOrder slot hslot
  rwa [Slot.Overridden, lookup_eq_of_perm hnodup hperm] at hslot

theorem fits_iff (hlaw : Lawful slots) (hnodup : (fields.map Prod.fst).Nodup) :
    Fits slots fields ↔
      (∀ field ∈ fields, ∃ slot ∈ slots, field.1 = slot.key.toList) ∧
        ∀ slot ∈ slots, ∀ value, fields.lookup slot.key.toList = some value →
          (slot.view value).isSome := by
  constructor
  · intro hfits
    refine ⟨fun field hmem ↦ ?_, fun slot hslot value hlookup ↦ ?_⟩
    · obtain ⟨slot, hslot, hkey, -⟩ := hfits field hmem
      exact ⟨slot, hslot, hkey⟩
    · obtain ⟨slot', hslot', hkey, hview⟩ := hfits _ (Fields.mem_of_lookup hlookup)
      obtain rfl := hlaw.eq_of_key_eq hslot hslot' (String.toList_inj.mp hkey)
      exact hview
  · rintro ⟨hknown, hview⟩ field hmem
    obtain ⟨slot, hslot, hkey⟩ := hknown field hmem
    refine ⟨slot, hslot, hkey, hview slot hslot field.2 ?_⟩
    rw [← hkey]
    exact (lookup_eq_some_iff_mem hnodup).mpr hmem

end Fold

end Config

end HeaderStamp
