import Mathlib.Data.List.Forall2

namespace HeaderStamp

variable {α β ε : Type} {f : α → Except ε β} {l : List α}

theorem exists_mem_of_mapM_error {e : ε} (h : l.mapM f = .error e) :
    ∃ a ∈ l, f a = .error e := by
  induction l with
  | nil => cases h
  | cons a rest ih =>
    rw [List.mapM_cons] at h
    cases ha : f a with
    | error first =>
      rw [ha] at h
      cases h
      exact ⟨a, List.mem_cons_self, ha⟩
    | ok b =>
      rw [ha] at h
      cases hrest : rest.mapM f with
      | error later =>
        rw [hrest] at h
        cases h
        obtain ⟨a, hmem, ha⟩ := ih hrest
        exact ⟨a, List.mem_cons_of_mem _ hmem, ha⟩
      | ok bs =>
        rw [hrest] at h
        cases h

theorem error_of_map_error {f : α → β} {result : Except ε α} {e : ε}
    (h : result.map f = .error e) : result = .error e := by
  cases result with
  | error first =>
    cases h
    rfl
  | ok a => cases h

theorem exists_error_of_mapError {δ : Type} {f : ε → δ} {result : Except ε α} {e : δ}
    (h : result.mapError f = .error e) : ∃ first, result = .error first ∧ e = f first := by
  cases result with
  | error first =>
    cases h
    exact ⟨first, rfl, rfl⟩
  | ok a => cases h

theorem map_eq_ok_iff {f : α → β} {result : Except ε α} {b : β} :
    result.map f = .ok b ↔ ∃ a, result = .ok a ∧ f a = b := by
  cases result <;> simp [Except.map]

theorem bind_eq_ok_iff {f : α → Except ε β} {result : Except ε α} {b : β} :
    result.bind f = .ok b ↔ ∃ a, result = .ok a ∧ f a = .ok b := by
  cases result <;> simp [Except.bind]

theorem toOption_eq_some_iff {result : Except ε α} {a : α} :
    result.toOption = some a ↔ result = .ok a := by
  cases result <;> simp [Except.toOption]

theorem isSome_toOption_iff {result : Except ε α} :
    result.toOption.isSome ↔ ∃ a, result = .ok a := by
  cases result <;> simp [Except.toOption]

theorem toOption_mapM (f : α → Except ε β) (l : List α) :
    (l.mapM f).toOption = l.mapM fun a ↦ (f a).toOption := by
  induction l with
  | nil => rfl
  | cons a l ih =>
    rw [List.mapM_cons, List.mapM_cons, ← ih]
    cases f a with
    | error e => rfl
    | ok b => cases l.mapM f <;> rfl

theorem forall₂_of_mapM_ok {bs : List β} (h : l.mapM f = .ok bs) :
    List.Forall₂ (fun a b ↦ f a = .ok b) l bs := by
  induction l generalizing bs with
  | nil =>
    cases h
    exact .nil
  | cons a rest ih =>
    rw [List.mapM_cons] at h
    cases ha : f a with
    | error e =>
      rw [ha] at h
      cases h
    | ok b =>
      rw [ha] at h
      cases hrest : rest.mapM f with
      | error e =>
        rw [hrest] at h
        cases h
      | ok more =>
        rw [hrest] at h
        cases h
        exact .cons ha (ih hrest)

theorem exists_ok_of_mapM_ok {bs : List β} (h : l.mapM f = .ok bs) {a : α} (ha : a ∈ l) :
    ∃ b ∈ bs, f a = .ok b := by
  have hall := forall₂_of_mapM_ok h
  clear h
  induction hall with
  | nil => cases ha
  | cons hfirst _ ih =>
    rcases List.mem_cons.mp ha with rfl | ha
    · exact ⟨_, List.mem_cons_self, hfirst⟩
    · obtain ⟨b, hb, hok⟩ := ih ha
      exact ⟨b, List.mem_cons_of_mem _ hb, hok⟩

theorem exists_mem_of_mapM_ok {bs : List β} (h : l.mapM f = .ok bs) {b : β} (hb : b ∈ bs) :
    ∃ a ∈ l, f a = .ok b := by
  have hall := forall₂_of_mapM_ok h
  clear h
  induction hall with
  | nil => cases hb
  | cons hfirst _ ih =>
    rcases List.mem_cons.mp hb with rfl | hb
    · exact ⟨_, List.mem_cons_self, hfirst⟩
    · obtain ⟨a, ha, hok⟩ := ih hb
      exact ⟨a, List.mem_cons_of_mem _ ha, hok⟩

theorem exists_mapM_ok_iff : (∃ bs, l.mapM f = .ok bs) ↔ ∀ a ∈ l, ∃ b, f a = .ok b := by
  constructor
  · rintro ⟨bs, h⟩ a ha
    obtain ⟨b, -, hok⟩ := exists_ok_of_mapM_ok h ha
    exact ⟨b, hok⟩
  · intro hall
    cases h : l.mapM f with
    | ok bs => exact ⟨bs, rfl⟩
    | error e =>
      obtain ⟨a, ha, hfail⟩ := exists_mem_of_mapM_error h
      obtain ⟨b, hok⟩ := hall a ha
      rw [hfail] at hok
      cases hok

theorem mapM_error_iff : (∃ e, l.mapM f = .error e) ↔ ∃ a ∈ l, ∃ e, f a = .error e := by
  constructor
  · rintro ⟨e, h⟩
    obtain ⟨a, ha, hfail⟩ := exists_mem_of_mapM_error h
    exact ⟨a, ha, e, hfail⟩
  · rintro ⟨a, ha, e, hfail⟩
    cases h : l.mapM f with
    | error first => exact ⟨first, rfl⟩
    | ok bs =>
      obtain ⟨b, -, hok⟩ := exists_ok_of_mapM_ok h ha
      rw [hfail] at hok
      cases hok

end HeaderStamp
