import HeaderStamp.Header.Block
import Mathlib.Data.List.Infix

namespace HeaderStamp.Header

inductive Slot
  | feature
  | component
deriving DecidableEq, Repr

namespace Slot

def text : Slot → Text
  | feature => featureSlot
  | component => componentSlot

def value (feature component : Text) : Slot → Text
  | .feature => feature
  | .component => component

theorem exists_text_eq (slot : Slot) : ∃ rest, slot.text = '\x7b' :: rest ∧ '\x7b' ∉ rest := by
  cases slot with
  | feature => exact ⟨"feature\x7d".toList, rfl, by decide⟩
  | component => exact ⟨"component\x7d".toList, rfl, by decide⟩

theorem length_text_pos (slot : Slot) : 0 < slot.text.length := by
  cases slot <;> decide

theorem eq_of_prefix {first second : Slot} {t : Text} (hfirst : first.text <+: t)
    (hsecond : second.text <+: t) : first = second := by
  have h := List.prefix_or_prefix_of_prefix hfirst hsecond
  revert h
  cases first <;> cases second <;> decide

end Slot

def Occurs (t : Text) (i : Nat) (slot : Slot) : Prop := slot.text <+: t.drop i

instance (t : Text) (i : Nat) (slot : Slot) : Decidable (Occurs t i slot) :=
  inferInstanceAs (Decidable (_ <+: _))

variable {t rest : Text} {i j : Nat} {slot other : Slot} {c : Char}

theorem occurs_cons_succ_iff : Occurs (c :: t) (i + 1) slot ↔ Occurs t i slot := Iff.rfl

theorem occurs_drop_iff : Occurs (t.drop i) j slot ↔ Occurs t (i + j) slot := by
  rw [Occurs, Occurs, List.drop_drop]

theorem occurs_append_iff (front : Text) :
    Occurs (front ++ t) (front.length + i) slot ↔ Occurs t i slot := by
  rw [← occurs_drop_iff, List.drop_left]

theorem not_occurs_nil : ¬ Occurs [] i slot := by
  obtain ⟨rest, htext, -⟩ := slot.exists_text_eq
  simp [Occurs, htext]

theorem Occurs.getElem? (h : Occurs t i slot) : t[i]? = some '\x7b' := by
  obtain ⟨tail, htext, -⟩ := slot.exists_text_eq
  obtain ⟨rest, hrest⟩ := h
  have hhead : (t.drop i)[0]? = some '\x7b' := by
    rw [← hrest, htext]
    rfl
  rwa [List.getElem?_drop] at hhead

/-- No slot begins within another one, whose only opening brace stands in front. -/
theorem not_occurs_within (hpos : 0 < i) (hlt : i < slot.text.length) :
    ¬ Occurs (slot.text ++ rest) i other := by
  intro h
  have hbrace := h.getElem?
  obtain ⟨tail, htext, hnone⟩ := slot.exists_text_eq
  obtain ⟨k, rfl⟩ : ∃ k, i = k + 1 := ⟨i - 1, by omega⟩
  rw [List.getElem?_append_left hlt, htext, List.getElem?_cons_succ] at hbrace
  exact hnone (List.mem_of_getElem? hbrace)

theorem occurs_text_append_iff :
    Occurs (slot.text ++ rest) i other ↔
      (i = 0 ∧ other = slot) ∨ ∃ j, i = slot.text.length + j ∧ Occurs rest j other := by
  have hlength := slot.length_text_pos
  rcases Nat.lt_or_ge i slot.text.length with hlt | hge
  · have hnone : ¬ ∃ j, i = slot.text.length + j ∧ Occurs rest j other := by
      rintro ⟨j, rfl, -⟩
      omega
    rw [or_iff_left hnone]
    constructor
    · intro h
      obtain rfl : i = 0 := by
        by_contra hpos
        exact not_occurs_within (by omega) hlt h
      exact ⟨rfl, Slot.eq_of_prefix h (List.prefix_append slot.text rest)⟩
    · rintro ⟨rfl, rfl⟩
      exact List.prefix_append other.text rest
  · obtain ⟨j, rfl⟩ := Nat.exists_eq_add_of_le hge
    rw [occurs_append_iff]
    constructor
    · exact fun h ↦ .inr ⟨j, rfl, h⟩
    · rintro (⟨hzero, -⟩ | ⟨k, hk, h⟩)
      · omega
      · rwa [Nat.add_left_cancel hk]

theorem Occurs.apart {first second : Slot} (hfirst : Occurs t i first)
    (hsecond : Occurs t j second) :
    (i = j ∧ first = second) ∨ i + first.text.length ≤ j ∨ j + second.text.length ≤ i := by
  wlog hle : i ≤ j generalizing i j first second
  · rcases this hsecond hfirst (by omega) with ⟨rfl, rfl⟩ | hbehind | hbefore
    · exact .inl ⟨rfl, rfl⟩
    · exact .inr (.inr hbehind)
    · exact .inr (.inl hbefore)
  obtain ⟨k, rfl⟩ := Nat.exists_eq_add_of_le hle
  obtain ⟨rest, hrest⟩ := hfirst
  rw [← occurs_drop_iff, ← hrest, occurs_text_append_iff] at hsecond
  rcases hsecond with ⟨rfl, rfl⟩ | ⟨d, rfl, -⟩
  · exact .inl ⟨rfl, rfl⟩
  · omega

theorem fillFrom_eq_drop (feature component : Text) (skip : Nat) (t : Text) :
    fillFrom feature component skip t = fillFrom feature component 0 (t.drop skip) := by
  induction t generalizing skip with
  | nil => cases skip <;> rfl
  | cons c t ih =>
    cases skip with
    | zero => rfl
    | succ skip => exact ih skip

theorem renderUsage_cons (h : ∀ slot : Slot, ¬ slot.text <+: c :: t) (feature component : Text) :
    renderUsage (c :: t) feature component = c :: renderUsage t feature component := by
  have hfeature : ¬ featureSlot.isPrefixOf (c :: t) := by
    rw [List.isPrefixOf_iff_prefix]
    exact h .feature
  have hcomponent : ¬ componentSlot.isPrefixOf (c :: t) := by
    rw [List.isPrefixOf_iff_prefix]
    exact h .component
  rw [renderUsage, fillFrom, if_neg hfeature, if_neg hcomponent, renderUsage]

theorem renderUsage_text_append (slot : Slot) (rest feature component : Text) :
    renderUsage (slot.text ++ rest) feature component =
      slot.value feature component ++ renderUsage rest feature component := by
  cases slot with
  | feature =>
    have hfeature : featureSlot.isPrefixOf ('\x7b' :: ("feature\x7d".toList ++ rest)) :=
      List.isPrefixOf_iff_prefix.mpr (List.prefix_append featureSlot rest)
    change fillFrom feature component 0 ('\x7b' :: ("feature\x7d".toList ++ rest)) = _
    rw [fillFrom, if_pos hfeature, fillFrom_eq_drop]
    rfl
  | component =>
    have hcomponent : componentSlot.isPrefixOf ('\x7b' :: ("component\x7d".toList ++ rest)) :=
      List.isPrefixOf_iff_prefix.mpr (List.prefix_append componentSlot rest)
    have hfeature : ¬ featureSlot.isPrefixOf ('\x7b' :: ("component\x7d".toList ++ rest)) := by
      intro hfeature
      rw [List.isPrefixOf_iff_prefix] at hfeature hcomponent
      cases @Slot.eq_of_prefix .feature .component _ hfeature hcomponent
    change fillFrom feature component 0 ('\x7b' :: ("component\x7d".toList ++ rest)) = _
    rw [fillFrom, if_neg hfeature, if_pos hcomponent, fillFrom_eq_drop]
    rfl

@[elab_as_elim]
theorem slotInduction {motive : Text → Prop} (nil : motive [])
    (cons : ∀ c t, (∀ slot : Slot, ¬ slot.text <+: c :: t) → motive t → motive (c :: t))
    (slot : ∀ (slot : Slot) rest, motive rest → motive (slot.text ++ rest)) (t : Text) :
    motive t := by
  induction hn : t.length using Nat.strongRecOn generalizing t with
  | _ n ih =>
    by_cases h : ∃ s : Slot, s.text <+: t
    · obtain ⟨s, rest, rfl⟩ := h
      have hlength := s.length_text_pos
      rw [List.length_append] at hn
      exact slot s rest (ih rest.length (by omega) rest rfl)
    · push Not at h
      cases t with
      | nil => exact nil
      | cons c t =>
        rw [List.length_cons] at hn
        exact cons c t h (ih t.length (by omega) t rfl)

/-- A text cut at some slots: a literal between any two of them, and one at either end. -/
inductive Layout
  | last (literal : Text)
  | slot (literal : Text) (slot : Slot) (rest : Layout)
deriving DecidableEq, Repr

namespace Layout

def fill (value : Slot → Text) : Layout → Text
  | .last literal => literal
  | .slot literal slot rest => literal ++ (value slot ++ rest.fill value)

def places : Layout → List (Nat × Slot)
  | .last _ => []
  | .slot literal slot rest =>
    (literal.length, slot) ::
      rest.places.map fun (i, other) ↦ (literal.length + (slot.text.length + i), other)

/-- The layout of a template: the template cut at all slots that occur in it. -/
structure Of (layout : Layout) (template : Text) : Prop where
  fill_text : layout.fill Slot.text = template
  mem_places_iff : ∀ i slot, (i, slot) ∈ layout.places ↔ Occurs template i slot

variable {layout first second : Layout} {literal : Text}

theorem mem_places_slot_iff :
    (i, other) ∈ (Layout.slot literal slot layout).places ↔
      (i = literal.length ∧ other = slot) ∨
        ∃ j, i = literal.length + (slot.text.length + j) ∧ (j, other) ∈ layout.places := by
  simp only [places, List.mem_cons, Prod.mk.injEq, List.mem_map, Prod.exists]
  constructor
  · rintro (hhere | ⟨j, same, hmem, rfl, rfl⟩)
    · exact .inl hhere
    · exact .inr ⟨j, rfl, hmem⟩
  · rintro (hhere | ⟨j, rfl, hmem⟩)
    · exact .inl hhere
    · exact .inr ⟨j, other, hmem, rfl, rfl⟩

def push (c : Char) : Layout → Layout
  | .last literal => .last (c :: literal)
  | .slot literal slot rest => .slot (c :: literal) slot rest

theorem fill_push (value : Slot → Text) (c : Char) (layout : Layout) :
    (layout.push c).fill value = c :: layout.fill value := by
  cases layout <;> rfl

theorem mem_places_push_iff :
    (i, other) ∈ (layout.push c).places ↔ ∃ j, i = j + 1 ∧ (j, other) ∈ layout.places := by
  cases layout with
  | last literal => simp [push, places]
  | slot literal slot rest =>
    simp only [push, mem_places_slot_iff, List.length_cons]
    constructor
    · rintro (⟨rfl, rfl⟩ | ⟨j, rfl, hmem⟩)
      · exact ⟨_, rfl, .inl ⟨rfl, rfl⟩⟩
      · exact ⟨literal.length + (slot.text.length + j), by omega, .inr ⟨j, rfl, hmem⟩⟩
    · rintro ⟨k, rfl, ⟨rfl, rfl⟩ | ⟨j, rfl, hmem⟩⟩
      · exact .inl ⟨rfl, rfl⟩
      · exact .inr ⟨j, by omega, hmem⟩

theorem of_nil : (Layout.last []).Of [] :=
  ⟨rfl, fun _ _ ↦ iff_of_false List.not_mem_nil not_occurs_nil⟩

theorem Of.push (h : layout.Of t) (hc : ∀ slot : Slot, ¬ slot.text <+: c :: t) :
    (layout.push c).Of (c :: t) where
  fill_text := by rw [fill_push, h.fill_text]
  mem_places_iff i slot := by
    rw [mem_places_push_iff]
    cases i with
    | zero => exact iff_of_false (by simp) (hc slot)
    | succ i => simp [h.mem_places_iff, occurs_cons_succ_iff]

theorem Of.cons (h : layout.Of rest) (slot : Slot) :
    (Layout.slot [] slot layout).Of (slot.text ++ rest) where
  fill_text := by rw [fill, h.fill_text, List.nil_append]
  mem_places_iff i other := by
    simp [mem_places_slot_iff, occurs_text_append_iff, h.mem_places_iff]

theorem exists_of (template : Text) :
    ∃ layout : Layout, layout.Of template ∧ ∀ feature component,
      renderUsage template feature component = layout.fill (Slot.value feature component) := by
  induction template using slotInduction with
  | nil => exact ⟨.last [], of_nil, fun _ _ ↦ rfl⟩
  | cons c t hc ih =>
    obtain ⟨layout, h, hrender⟩ := ih
    refine ⟨layout.push c, h.push hc, fun feature component ↦ ?_⟩
    rw [renderUsage_cons hc, fill_push, hrender]
  | slot slot rest ih =>
    obtain ⟨layout, h, hrender⟩ := ih
    refine ⟨.slot [] slot layout, h.cons slot, fun feature component ↦ ?_⟩
    rw [renderUsage_text_append, fill, hrender, List.nil_append]

theorem Of.behind (h : (Layout.slot literal slot layout).Of t) :
    layout.Of (layout.fill Slot.text) where
  fill_text := rfl
  mem_places_iff i other := by
    have hlength := slot.length_text_pos
    have hplace := h.mem_places_iff (literal.length + (slot.text.length + i)) other
    rw [← h.fill_text, fill, occurs_append_iff, occurs_append_iff, mem_places_slot_iff] at hplace
    rw [← hplace]
    constructor
    · exact fun hmem ↦ .inr ⟨i, rfl, hmem⟩
    · rintro (⟨hi, -⟩ | ⟨j, hj, hmem⟩)
      · omega
      · obtain rfl : i = j := by omega
        exact hmem

theorem Of.length_le (h : (Layout.slot literal slot layout).Of t) (hoccurs : Occurs t i other) :
    literal.length ≤ i := by
  rcases mem_places_slot_iff.mp ((h.mem_places_iff i other).mpr hoccurs) with ⟨rfl, -⟩ | ⟨j, rfl, -⟩
  · exact le_rfl
  · omega

theorem Of.occurs (h : (Layout.slot literal slot layout).Of t) : Occurs t literal.length slot :=
  (h.mem_places_iff _ _).mp List.mem_cons_self

theorem Of.unique (hfirst : first.Of t) (hsecond : second.Of t) : first = second := by
  induction first generalizing second t with
  | last literal =>
    cases second with
    | last other => rw [last.injEq]; exact hfirst.fill_text.trans hsecond.fill_text.symm
    | slot other slot rest =>
      have hmem := (hfirst.mem_places_iff _ _).mpr hsecond.occurs
      cases hmem
  | slot literal slot rest ih =>
    cases second with
    | last other =>
      have hmem := (hsecond.mem_places_iff _ _).mpr hfirst.occurs
      cases hmem
    | slot other otherSlot others =>
      have hlength : literal.length = other.length :=
        Nat.le_antisymm (hfirst.length_le hsecond.occurs) (hsecond.length_le hfirst.occurs)
      have hslot : slot = otherSlot := by
        have hoccurs := hsecond.occurs
        rw [← hlength] at hoccurs
        exact Slot.eq_of_prefix hfirst.occurs hoccurs
      subst hslot
      have htext := hfirst.fill_text.trans hsecond.fill_text.symm
      rw [fill, fill] at htext
      obtain ⟨rfl, hrest⟩ := List.append_inj htext hlength
      have hrest := List.append_cancel_left hrest
      have hothers := hsecond.behind
      rw [← hrest] at hothers
      rw [ih hfirst.behind hothers]

end Layout

theorem renderUsage_append {front back : Text}
    (hcut : ∀ i slot, Occurs (front ++ back) i slot →
      i + slot.text.length ≤ front.length ∨ front.length ≤ i) (feature component : Text) :
    renderUsage (front ++ back) feature component =
      renderUsage front feature component ++ renderUsage back feature component := by
  induction front using slotInduction with
  | nil => rfl
  | cons c t hc ih =>
    have hnone : ∀ slot : Slot, ¬ slot.text <+: c :: (t ++ back) := by
      intro slot hprefix
      rcases hcut 0 slot hprefix with hwithin | hbehind
      · exact hc slot (List.prefix_of_prefix_length_le hprefix (List.prefix_append (c :: t) back)
          (by omega))
      · simp at hbehind
    have hrest : ∀ i slot, Occurs (t ++ back) i slot →
        i + slot.text.length ≤ t.length ∨ t.length ≤ i := by
      intro i slot hoccurs
      have := hcut (i + 1) slot hoccurs
      rw [List.length_cons] at this
      omega
    rw [List.cons_append, renderUsage_cons hnone, renderUsage_cons hc, ih hrest, List.cons_append]
  | slot slot rest ih =>
    have hrest : ∀ i other, Occurs (rest ++ back) i other →
        i + other.text.length ≤ rest.length ∨ rest.length ≤ i := by
      intro i other hoccurs
      have hplace := hcut (slot.text.length + i) other
        (by rw [List.append_assoc, occurs_append_iff]; exact hoccurs)
      rw [List.length_append] at hplace
      omega
    rw [List.append_assoc, renderUsage_text_append, renderUsage_text_append, ih hrest,
      List.append_assoc]

/-- A template is cut at its slots in one way only, since no two of them share a character, and
rendering puts the values where the slots were. Values are not looked at, whatever they hold. Two
halves of a template are rendered apart unless a slot lies across the cut. -/
theorem renderUsage_simultaneous (template : Text) :
    (∀ i j first second, Occurs template i first → Occurs template j second →
      (i = j ∧ first = second) ∨ i + first.text.length ≤ j ∨ j + second.text.length ≤ i) ∧
    (∃ layout : Layout, layout.Of template ∧
      (∀ other : Layout, other.Of template → other = layout) ∧ ∀ feature component,
        renderUsage template feature component = layout.fill (Slot.value feature component)) ∧
    ∀ front back, template = front ++ back →
      (∀ i slot, Occurs template i slot →
        i + slot.text.length ≤ front.length ∨ front.length ≤ i) →
      ∀ feature component, renderUsage template feature component =
        renderUsage front feature component ++ renderUsage back feature component := by
  refine ⟨fun i j first second hfirst hsecond ↦ hfirst.apart hsecond, ?_, ?_⟩
  · obtain ⟨layout, h, hrender⟩ := Layout.exists_of template
    exact ⟨layout, h, fun other hother ↦ hother.unique h, hrender⟩
  · rintro front back rfl hcut feature component
    exact renderUsage_append hcut feature component

theorem renderUsage_simultaneous_of_braces :
    let front := "Of \x7b\x7bfeature\x7d\x7d in \x7b".toList
    let back := "\x7bcomponent\x7d\x7bfeature".toList
    renderUsage front "\x7bcomponent\x7d".toList "feature".toList =
        "Of \x7b\x7bcomponent\x7d\x7d in \x7b".toList ∧
      renderUsage (front ++ back) "\x7bcomponent\x7d".toList "feature".toList =
        "Of \x7b\x7bcomponent\x7d\x7d in \x7bfeature\x7bfeature".toList ∧
      ∀ feature component, renderUsage (front ++ back) feature component =
        renderUsage front feature component ++ renderUsage back feature component := by
  intro front back
  refine ⟨by decide +kernel, by decide +kernel, ?_⟩
  apply (renderUsage_simultaneous (front ++ back)).2.2 front back rfl
  intro i slot hoccurs
  -- an occurrence that would lie across the cut is looked for where there is a text at all
  have hlt : i < (front ++ back).length := by
    obtain ⟨hlt, -⟩ := List.getElem?_eq_some_iff.mp hoccurs.getElem?
    exact hlt
  have hnone : ∀ i < (front ++ back).length, ∀ slot ∈ [Slot.feature, Slot.component],
      Occurs (front ++ back) i slot →
        i + slot.text.length ≤ front.length ∨ front.length ≤ i := by
    decide +kernel
  exact hnone i hlt slot (by cases slot <;> simp) hoccurs

end HeaderStamp.Header
