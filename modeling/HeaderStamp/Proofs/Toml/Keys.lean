import HeaderStamp.Toml.Reader
import Mathlib.Data.List.Basic

namespace HeaderStamp.Toml

def Value.isLeaf : Value → Bool
  | .array _ => false
  | .tables _ => false
  | .table _ _ => false
  | _ => true

/-- In a value, and in all values inside, no table has two fields of one key. -/
inductive Value.Distinct : Value → Prop
  | leaf {value : Value} (h : value.isLeaf = true) : Distinct value
  | array {items : List Value} (h : ∀ item ∈ items, item.Distinct) : Distinct (.array items)
  | tables {items : List Value} (h : ∀ item ∈ items, item.Distinct) : Distinct (.tables items)
  | table {origin : Origin} {fields : Fields} (hkeys : (fields.map Prod.fst).Nodup)
      (h : ∀ field ∈ fields, field.2.Distinct) : Distinct (.table origin fields)

structure Fields.Distinct (fields : Fields) : Prop where
  nodup : (fields.map Prod.fst).Nodup
  value : ∀ field ∈ fields, field.2.Distinct

variable {fields changed inner : Fields} {items : List Value} {origin : Origin} {key : Text}
  {value : Value} {path : List Text} {t rest : Text} {fuel : Nat}

theorem Value.distinct_table_iff : (Value.table origin fields).Distinct ↔ fields.Distinct := by
  constructor
  · intro h
    cases h with
    | leaf h => cases h
    | table hkeys h => exact ⟨hkeys, h⟩
  · intro h
    exact .table h.nodup h.value

theorem Value.Distinct.of_mem_tables (h : (Value.tables items).Distinct) {item : Value}
    (hmem : item ∈ items) : item.Distinct := by
  cases h with
  | leaf h => cases h
  | tables h => exact h item hmem

namespace Fields

theorem mem_of_lookup (h : fields.lookup key = some value) : (key, value) ∈ fields := by
  obtain ⟨front, back, rfl, -⟩ := List.lookup_eq_some_iff.mp h
  simp

theorem map_fst_put (key : Text) (value : Value) (fields : Fields) :
    (put key value fields).map Prod.fst =
      if key ∈ fields.map Prod.fst then fields.map Prod.fst else fields.map Prod.fst ++ [key] := by
  induction fields with
  | nil => rfl
  | cons field rest ih =>
    obtain ⟨k, v⟩ := field
    rw [put]
    by_cases hk : k = key
    · simp [hk]
    · rw [if_neg hk, List.map_cons, ih]
      by_cases hmem : key ∈ rest.map Prod.fst
      · simp [hmem]
      · simp [hmem, Ne.symm hk]

theorem mem_put {field : Text × Value} (h : field ∈ put key value fields) :
    field = (key, value) ∨ field ∈ fields := by
  induction fields with
  | nil => exact .inl (List.mem_singleton.mp h)
  | cons first rest ih =>
    obtain ⟨k, v⟩ := first
    rw [put] at h
    split at h
    · rcases List.mem_cons.mp h with h | h
      · exact .inl h
      · exact .inr (List.mem_cons_of_mem _ h)
    · rcases List.mem_cons.mp h with h | h
      · exact .inr (List.mem_cons.mpr (.inl h))
      · exact (ih h).imp_right (List.mem_cons_of_mem _)

theorem distinct_nil : Distinct [] := ⟨List.nodup_nil, List.forall_mem_nil _⟩

theorem Distinct.put (h : fields.Distinct) (hvalue : value.Distinct) :
    (Fields.put key value fields).Distinct where
  nodup := by
    rw [map_fst_put]
    split
    · exact h.nodup
    · next hnew => exact List.nodup_append.mpr ⟨h.nodup, by simp, by grind⟩
  value field hmem := by
    rcases mem_put hmem with rfl | hmem
    · exact hvalue
    · exact h.value field hmem

theorem Distinct.of_lookup (h : fields.Distinct) (hlookup : fields.lookup key = some value) :
    value.Distinct := h.value _ (mem_of_lookup hlookup)

theorem Distinct.of_lookup_table (h : fields.Distinct)
    (hlookup : fields.lookup key = some (.table origin inner)) : inner.Distinct :=
  Value.distinct_table_iff.mp (h.of_lookup hlookup)

theorem Distinct.put_tables (h : fields.Distinct)
    (hlookup : fields.lookup key = some (.tables items)) {more : List Value}
    (hmore : ∀ item ∈ more, item.Distinct) :
    (Fields.put key (.tables (items.dropLast ++ more)) fields).Distinct := by
  refine h.put (.tables fun item hmem ↦ ?_)
  rcases List.mem_append.mp hmem with hmem | hmem
  · exact (h.of_lookup hlookup).of_mem_tables (List.dropLast_subset items hmem)
  · exact hmore item hmem

end Fields

def KeepsDistinct (change : Fields → Option Fields) : Prop :=
  ∀ {fields changed : Fields}, fields.Distinct → change fields = some changed → changed.Distinct

theorem keepsDistinct_descend {dotted : Bool} {change : Origin → Fields → Option Fields}
    (h : ∀ origin, KeepsDistinct (change origin)) (path : List Text) (origin : Origin) :
    KeepsDistinct (descend dotted change path origin) := by
  induction path generalizing origin with
  | nil => exact h origin
  | cons key path ih =>
    intro fields changed hfields hchanged
    rw [descend] at hchanged
    split at hchanged
    case h_1 =>
      obtain ⟨inner, hinner, rfl⟩ := Option.map_eq_some_iff.mp hchanged
      exact hfields.put (Value.distinct_table_iff.mpr (ih _ Fields.distinct_nil hinner))
    case h_2 hlookup =>
      split at hchanged
      · obtain ⟨inner, hinner, rfl⟩ := Option.map_eq_some_iff.mp hchanged
        have hold := hfields.of_lookup_table hlookup
        exact hfields.put (Value.distinct_table_iff.mpr (ih _ hold hinner))
      · cases hchanged
    case h_3 items hlookup =>
      split at hchanged
      case h_1 hlast =>
        split at hchanged
        · cases hchanged
        · obtain ⟨inner, hinner, rfl⟩ := Option.map_eq_some_iff.mp hchanged
          have hold := (hfields.of_lookup hlookup).of_mem_tables (List.mem_of_getLast? hlast)
          have hnew := ih _ (Value.distinct_table_iff.mp hold) hinner
          refine hfields.put_tables hlookup ?_
          simpa using Value.distinct_table_iff.mpr hnew
      case h_2 => cases hchanged
    case h_4 => cases hchanged

theorem keepsDistinct_within {change : Fields → Option Fields} (h : KeepsDistinct change)
    (path : List Text) : KeepsDistinct (within change path) := by
  induction path with
  | nil => exact h
  | cons key path ih =>
    intro fields changed hfields hchanged
    rw [within] at hchanged
    split at hchanged
    case h_1 hlookup =>
      obtain ⟨inner, hinner, rfl⟩ := Option.map_eq_some_iff.mp hchanged
      exact hfields.put (Value.distinct_table_iff.mpr (ih (hfields.of_lookup_table hlookup) hinner))
    case h_2 items hlookup =>
      split at hchanged
      case h_1 hlast =>
        obtain ⟨inner, hinner, rfl⟩ := Option.map_eq_some_iff.mp hchanged
        have hold := (hfields.of_lookup hlookup).of_mem_tables (List.mem_of_getLast? hlast)
        have hnew := ih (Value.distinct_table_iff.mp hold) hinner
        refine hfields.put_tables hlookup ?_
        simpa using Value.distinct_table_iff.mpr hnew
      case h_2 => cases hchanged
    case h_3 => cases hchanged

theorem keepsDistinct_addPair (path : List Text) (key : Text) (hvalue : value.Distinct) :
    KeepsDistinct (addPair path key value) := by
  refine keepsDistinct_descend (fun origin fields changed hfields hchanged ↦ ?_) path .header
  split at hchanged
  · cases hchanged
  · split at hchanged
    · cases hchanged
    · cases hchanged
      exact hfields.put hvalue

theorem distinct_emptyTable : (Value.table .header []).Distinct :=
  Value.distinct_table_iff.mpr Fields.distinct_nil

theorem keepsDistinct_openTable (path : List Text) (key : Text) :
    KeepsDistinct (openTable path key) := by
  refine keepsDistinct_descend (fun origin fields changed hfields hchanged ↦ ?_) path .header
  split at hchanged
  · cases hchanged
    exact hfields.put distinct_emptyTable
  · next hlookup =>
    cases hchanged
    exact hfields.put (Value.distinct_table_iff.mpr (hfields.of_lookup_table hlookup))
  · cases hchanged

theorem keepsDistinct_openNext (path : List Text) (key : Text) :
    KeepsDistinct (openNext path key) := by
  refine keepsDistinct_descend (fun origin fields changed hfields hchanged ↦ ?_) path .header
  split at hchanged
  · cases hchanged
    exact hfields.put (.tables (by simpa using distinct_emptyTable))
  · next hlookup =>
    cases hchanged
    refine hfields.put (.tables fun item hmem ↦ ?_)
    rcases List.mem_append.mp hmem with hmem | hmem
    · exact (hfields.of_lookup hlookup).of_mem_tables hmem
    · rw [List.mem_singleton.mp hmem]
      exact distinct_emptyTable
  · cases hchanged

theorem distinct_of_scalar {word : Text} (h : scalar word = some value) : value.Distinct := by
  refine .leaf ?_
  rw [scalar] at h
  split at h
  · cases h
    rfl
  · split at h
    · cases h
      rfl
    · split at h
      · cases h
        split <;> rfl
      · split at h
        · split at h <;> cases h <;> rfl
        · cases h
          rfl
        · split at h <;> cases h
          rfl

structure ReadsDistinct (fuel : Nat) : Prop where
  value : ∀ {t value rest}, value? fuel t = some (value, rest) → value.Distinct
  items : ∀ {items t value rest}, (∀ item ∈ items, Value.Distinct item) →
    items? fuel items t = some (value, rest) → value.Distinct
  pairs : ∀ {fields t value rest}, Fields.Distinct fields →
    pairs? fuel fields t = some (value, rest) → value.Distinct
  pair : ∀ {t path key value rest}, pair? fuel t = some ((path, key, value), rest) → value.Distinct

theorem readsDistinct_zero : ReadsDistinct 0 where
  value h := by
    rw [value?] at h
    cases h
  items _ h := by
    rw [items?] at h
    cases h
  pairs _ h := by
    rw [pairs?] at h
    cases h
  pair h := by
    rw [pair?] at h
    cases h

theorem ReadsDistinct.value_succ (ih : ReadsDistinct fuel)
    (h : value? (fuel + 1) t = some (value, rest)) : value.Distinct := by
  unfold value? at h
  split at h
  · exact ih.items (List.forall_mem_nil _) h
  · exact ih.pairs Fields.distinct_nil h
  · obtain ⟨⟨s, after⟩, -, heq⟩ := Option.map_eq_some_iff.mp h
    cases heq
    exact .leaf rfl
  · obtain ⟨⟨s, after⟩, -, heq⟩ := Option.map_eq_some_iff.mp h
    cases heq
    exact .leaf rfl
  · obtain ⟨read, hread, heq⟩ := Option.map_eq_some_iff.mp h
    cases heq
    exact distinct_of_scalar hread

theorem ReadsDistinct.items_succ (ih : ReadsDistinct fuel)
    (hitems : ∀ item ∈ items, Value.Distinct item)
    (h : items? (fuel + 1) items t = some (value, rest)) : value.Distinct := by
  rw [items?] at h
  obtain ⟨start, -, h⟩ := Option.bind_eq_some_iff.mp h
  split at h
  · cases h
    exact .array hitems
  · obtain ⟨⟨item, after⟩, hitem, h⟩ := Option.bind_eq_some_iff.mp h
    obtain ⟨next, -, h⟩ := Option.bind_eq_some_iff.mp h
    have hmore : ∀ other ∈ items ++ [item], Value.Distinct other := by
      intro other hmem
      rcases List.mem_append.mp hmem with hmem | hmem
      · exact hitems other hmem
      · rw [List.mem_singleton.mp hmem]
        exact ih.value hitem
    split at h
    · exact ih.items hmore h
    · cases h
      exact .array hmore
    · cases h

theorem ReadsDistinct.pairs_succ (ih : ReadsDistinct fuel) (hfields : fields.Distinct)
    (h : pairs? (fuel + 1) fields t = some (value, rest)) : value.Distinct := by
  rw [pairs?] at h
  obtain ⟨start, -, h⟩ := Option.bind_eq_some_iff.mp h
  split at h
  · cases h
    exact Value.distinct_table_iff.mpr hfields
  · obtain ⟨⟨⟨path, key, inner⟩, after⟩, hpair, h⟩ := Option.bind_eq_some_iff.mp h
    obtain ⟨changed, hadd, h⟩ := Option.bind_eq_some_iff.mp h
    obtain ⟨next, -, h⟩ := Option.bind_eq_some_iff.mp h
    have hchanged := keepsDistinct_addPair path key (ih.pair hpair) hfields hadd
    split at h
    · exact ih.pairs hchanged h
    · cases h
      exact Value.distinct_table_iff.mpr hchanged
    · cases h

theorem ReadsDistinct.pair_succ (ih : ReadsDistinct fuel)
    (h : pair? (fuel + 1) t = some ((path, key, value), rest)) : value.Distinct := by
  rw [pair?] at h
  obtain ⟨⟨parts, after⟩, -, h⟩ := Option.bind_eq_some_iff.mp h
  dsimp only at h
  split at h
  · obtain ⟨⟨read, next⟩, hread, heq⟩ := Option.map_eq_some_iff.mp h
    cases heq
    exact ih.value hread
  · cases h

theorem readsDistinct (fuel : Nat) : ReadsDistinct fuel := by
  induction fuel with
  | zero => exact readsDistinct_zero
  | succ fuel ih => exact ⟨ih.value_succ, ih.items_succ, ih.pairs_succ, ih.pair_succ⟩

theorem distinct_of_expression? {draft next : Draft} (hdraft : draft.fields.Distinct)
    (h : expression? draft t = some (next, rest)) : next.fields.Distinct := by
  unfold expression? at h
  split at h
  · obtain ⟨⟨⟨path, key⟩, after⟩, -, h⟩ := Option.bind_eq_some_iff.mp h
    obtain ⟨fields, hfields, heq⟩ := Option.map_eq_some_iff.mp h
    cases heq
    exact keepsDistinct_openNext path key hdraft hfields
  · obtain ⟨⟨⟨path, key⟩, after⟩, -, h⟩ := Option.bind_eq_some_iff.mp h
    obtain ⟨fields, hfields, heq⟩ := Option.map_eq_some_iff.mp h
    cases heq
    exact keepsDistinct_openTable path key hdraft hfields
  · obtain ⟨⟨⟨path, key, value⟩, after⟩, hpair, h⟩ := Option.bind_eq_some_iff.mp h
    obtain ⟨fields, hfields, heq⟩ := Option.map_eq_some_iff.mp h
    cases heq
    have hvalue := (readsDistinct _).pair hpair
    exact keepsDistinct_within (keepsDistinct_addPair path key hvalue) draft.header hdraft hfields

theorem distinct_of_document? {draft : Draft} (hdraft : draft.fields.Distinct)
    (h : document? fuel draft t = some fields) : fields.Distinct := by
  induction fuel generalizing draft t with
  | zero => cases h
  | succ fuel ih =>
    rw [document?] at h
    split at h
    · cases h
      exact hdraft
    · split at h
      · exact ih hdraft h
      · obtain ⟨⟨next, after⟩, hnext, h⟩ := Option.bind_eq_some_iff.mp h
        obtain ⟨line, -, h⟩ := Option.bind_eq_some_iff.mp h
        exact ih (distinct_of_expression? hdraft hnext) h

/-- Whatever is read, it never has two fields of one key, in no table. -/
theorem distinct_of_read? (h : read? t = some fields) : fields.Distinct :=
  distinct_of_document? Fields.distinct_nil h

end HeaderStamp.Toml
