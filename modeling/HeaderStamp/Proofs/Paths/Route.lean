import HeaderStamp.FileTree.Machine
import HeaderStamp.Proofs.Paths.Components

namespace HeaderStamp.Path

section Route

variable {path base route : List Component}

theorem eq_of_detour? (hbase : .here ∉ base) (h : detour? path base = some route) :
    route = base.map (fun _ ↦ .parent) ++ path := by
  cases path with
  | nil =>
    rw [detour?, Option.some.injEq] at h
    rw [List.append_nil, h]
  | cons first path =>
    cases base with
    | nil => exact (Option.some.inj h).symm
    | cons step base =>
      cases step with
      | here => exact absurd List.mem_cons_self hbase
      | parent => cases h
      | root => exact (Option.some.inj h).symm
      | name n => exact (Option.some.inj h).symm

theorem stepsBetween?_nil (base : List Component) :
    stepsBetween? [] base = some (base.map fun _ ↦ .parent) := by
  cases base <;> rfl

/-- A route climbs from the base to what it shares with the path and goes down from there. -/
theorem exists_parts_of_stepsBetween? (hbase : .here ∉ base)
    (h : stepsBetween? path base = some route) :
    ∃ shared aside own, base = shared ++ aside ∧ path = shared ++ own ∧
      route = aside.map (fun _ ↦ .parent) ++ own := by
  induction path generalizing base with
  | nil =>
    rw [stepsBetween?_nil, Option.some.injEq] at h
    exact ⟨[], base, [], rfl, rfl, by rw [List.append_nil, h]⟩
  | cons first path ih =>
    cases base with
    | nil => exact ⟨[], [], first :: path, rfl, rfl, eq_of_detour? hbase h⟩
    | cons step base =>
      rw [stepsBetween?] at h
      split at h
      · rename_i heq
        subst heq
        obtain ⟨shared, aside, own, rfl, rfl, hroute⟩ :=
          ih (fun hmem ↦ hbase (List.mem_cons_of_mem _ hmem)) h
        exact ⟨first :: shared, aside, own, rfl, rfl, hroute⟩
      · exact ⟨[], step :: base, first :: path, rfl, rfl, eq_of_detour? hbase h⟩

theorem parent_mem_of_stepsBetween?_eq_none (hbase : .here ∉ base)
    (h : stepsBetween? path base = none) : .parent ∈ base := by
  induction path generalizing base with
  | nil =>
    rw [stepsBetween?_nil] at h
    cases h
  | cons first path ih =>
    cases base with
    | nil => cases h
    | cons step base =>
      rw [stepsBetween?] at h
      split at h
      · exact List.mem_cons_of_mem _ (ih (fun hmem ↦ hbase (List.mem_cons_of_mem _ hmem)) h)
      · cases step with
        | here => exact absurd List.mem_cons_self hbase
        | parent => exact List.mem_cons_self
        | root => cases h
        | name n => cases h

theorem stepsBetween?_append (base own : List Component) :
    stepsBetween? (base ++ own) base = some own := by
  induction base with
  | nil => cases own <;> rfl
  | cons step base ih =>
    rw [List.cons_append, stepsBetween?, if_pos rfl]
    exact ih

def shared : Location → Location → Location
  | a :: first, b :: second => if a = b then a :: shared first second else []
  | _, _ => []

theorem exists_parts_shared (first second : Location) :
    ∃ aside own, first = shared first second ++ aside ∧ second = shared first second ++ own ∧
      stepsBetween? (second.map .name) (first.map .name) =
        some (aside.map (fun _ ↦ .parent) ++ own.map .name) := by
  induction first generalizing second with
  | nil => exact ⟨[], second, rfl, rfl, by cases second <;> rfl⟩
  | cons a first ih =>
    cases second with
    | nil =>
      refine ⟨a :: first, [], rfl, rfl, ?_⟩
      rw [List.map_nil, stepsBetween?_nil, List.map_map, List.append_nil]
      rfl
    | cons b second =>
      rw [shared]
      by_cases heq : a = b
      · subst heq
        obtain ⟨aside, own, hfirst, hsecond, hroute⟩ := ih second
        refine ⟨aside, own, ?_, ?_, ?_⟩
        · rw [if_pos rfl, List.cons_append, ← hfirst]
        · rw [if_pos rfl, List.cons_append, ← hsecond]
        · rw [List.map_cons, List.map_cons, stepsBetween?, if_pos rfl, hroute]
      · refine ⟨a :: first, b :: second, ?_, ?_, ?_⟩
        · rw [if_neg heq, List.nil_append]
        · rw [if_neg heq, List.nil_append]
        · have hne : Component.name b ≠ .name a := fun h ↦ heq (Component.name.inj h).symm
          rw [List.map_cons, List.map_cons, stepsBetween?, if_neg hne, detour?, List.map_map]
          · rfl
          · exact Component.noConfusion
          · exact Component.noConfusion

theorem prefix_shared {base first second : Location} (hfirst : base <+: first)
    (hsecond : base <+: second) : base <+: shared first second := by
  induction base generalizing first second with
  | nil => exact List.nil_prefix
  | cons name base ih =>
    obtain ⟨aside, rfl⟩ := hfirst
    obtain ⟨own, rfl⟩ := hsecond
    rw [List.cons_append, List.cons_append, shared, if_pos rfl, List.cons_prefix_cons]
    exact ⟨rfl, ih (List.prefix_append base aside) (List.prefix_append base own)⟩

/-- The way from a base to a location; the location as it is where there is no such way. -/
def routeTo (base : List Component) (location : Location) : List Component :=
  (stepsBetween? (location.map .name) base).getD (location.map .name)

theorem parent_notMem_names (location : Location) :
    Component.parent ∉ location.map Component.name := by
  simp

theorem names_injective : Function.Injective (List.map Component.name) :=
  List.map_injective_iff.mpr fun _ _ h ↦ Component.name.inj h

theorem count_parent_climb_append {aside own : List Component} (h : .parent ∉ own) :
    (aside.map (fun _ ↦ Component.parent) ++ own).count .parent = aside.length := by
  rw [List.count_append, List.count_eq_zero_of_not_mem h, List.map_const',
    List.count_replicate_self]
  rfl

theorem eq_of_stepsBetween?_eq {location other : Location} (hbase : .here ∉ base)
    (hfirst : stepsBetween? (location.map .name) base = some route)
    (hsecond : stepsBetween? (other.map .name) base = some route) : location = other := by
  obtain ⟨shared, aside, own, hparts, hlocation, hroute⟩ :=
    exists_parts_of_stepsBetween? hbase hfirst
  obtain ⟨upper, climbed, lower, hmore, hother, hagain⟩ :=
    exists_parts_of_stepsBetween? hbase hsecond
  have hown : .parent ∉ own := fun hmem ↦
    parent_notMem_names location (hlocation ▸ List.mem_append_right shared hmem)
  have hlower : .parent ∉ lower := fun hmem ↦
    parent_notMem_names other (hother ▸ List.mem_append_right upper hmem)
  have hclimb : aside.length = climbed.length := by
    rw [← count_parent_climb_append hown, ← count_parent_climb_append hlower, ← hroute, hagain]
  obtain ⟨-, hnames⟩ := List.append_inj (hroute.symm.trans hagain) (by simpa using hclimb)
  obtain ⟨hshared, -⟩ := List.append_inj' (hparts.symm.trans hmore) hclimb
  apply names_injective
  rw [hlocation, hother, hshared, hnames]

theorem ne_of_stepsBetween?_eq_none {location other : Location} (hbase : .here ∉ base)
    (hnone : stepsBetween? (location.map .name) base = none)
    (hsome : stepsBetween? (other.map .name) base = some route) : route ≠ location.map .name := by
  obtain ⟨shared, aside, own, rfl, hother, rfl⟩ := exists_parts_of_stepsBetween? hbase hsome
  intro hroute
  rcases List.mem_append.mp (parent_mem_of_stepsBetween?_eq_none hbase hnone) with hshared | haside
  · exact parent_notMem_names other (hother ▸ List.mem_append_left own hshared)
  · exact parent_notMem_names location
      (hroute ▸ List.mem_append_left own (List.mem_map_of_mem haside))

theorem routeTo_injective (hbase : .here ∉ base) : Function.Injective (routeTo base) := by
  intro location other h
  rw [routeTo, routeTo] at h
  cases hfirst : stepsBetween? (location.map .name) base with
  | none =>
    cases hsecond : stepsBetween? (other.map .name) base with
    | none =>
      rw [hfirst, hsecond] at h
      exact names_injective h
    | some route =>
      rw [hfirst, hsecond] at h
      exact absurd h.symm (ne_of_stepsBetween?_eq_none hbase hfirst hsecond)
  | some route =>
    cases hsecond : stepsBetween? (other.map .name) base with
    | none =>
      rw [hfirst, hsecond] at h
      exact absurd h (ne_of_stepsBetween?_eq_none hbase hsecond hfirst)
    | some more =>
      rw [hfirst, hsecond] at h
      cases h
      exact eq_of_stepsBetween?_eq hbase hfirst hsecond

theorem isStep_names {location : Location} (hnames : ∀ name ∈ location, IsName name) :
    ∀ step ∈ location.map Component.name, IsStep step := by
  intro step hstep
  obtain ⟨name, hname, rfl⟩ := List.mem_map.mp hstep
  exact hnames name hname

theorem isStep_of_mem_routeTo {location : Location} (hnames : ∀ name ∈ location, IsName name)
    (hbase : .here ∉ base) {step : Component} (h : step ∈ routeTo base location) : IsStep step := by
  have hname := isStep_names hnames
  rw [routeTo] at h
  cases hroute : stepsBetween? (location.map .name) base with
  | none =>
    rw [hroute] at h
    exact hname step h
  | some route =>
    rw [hroute] at h
    obtain ⟨shared, aside, own, -, hlocation, rfl⟩ := exists_parts_of_stepsBetween? hbase hroute
    rcases List.mem_append.mp h with hclimb | hown
    · obtain ⟨-, -, rfl⟩ := List.mem_map.mp hclimb
      trivial
    · exact hname step (hlocation ▸ List.mem_append_right shared hown)

end Route

section LocationText

open Machine (locationText)

variable {location : Location}

theorem isAbsolute_locationText (location : Location) :
    isAbsolute (locationText location) = true := rfl

theorem map_text_names (location : Location) :
    (location.map Component.name).map Component.text = location := by
  rw [List.map_map]
  exact List.map_id location

theorem stepsOf_join_names (hnames : ∀ name ∈ location, IsName name) :
    stepsOf (Text.join ['/'] location) = location.map .name := by
  rw [← stepsOf_join_text (isStep_names hnames), map_text_names]

theorem split_join_names (hne : location ≠ []) (hnames : ∀ name ∈ location, IsName name) :
    Text.split '/' (Text.join ['/'] location) = location :=
  Text.split_join_of_notMem hne fun name hname ↦ (hnames name hname).1

theorem split_locationText (hne : location ≠ []) (hnames : ∀ name ∈ location, IsName name) :
    Text.split '/' (locationText location) = [] :: location := by
  rw [locationText, Text.split, if_pos rfl, split_join_names hne hnames]

theorem getLast?_locationText_ne (hne : location ≠ []) (hnames : ∀ name ∈ location, IsName name) :
    (locationText location).getLast? ≠ some '/' := by
  have hend := Text.getLast_split_eq_nil_iff '/' (locationText location)
  simp only [split_locationText hne hnames, List.getLast_cons hne] at hend
  exact fun hslash ↦ (hnames _ (List.getLast_mem hne)).2.1 (hend.mpr (.inr hslash))

theorem components_locationText (hnames : ∀ name ∈ location, IsName name) :
    components (locationText location) = .root :: location.map .name := by
  rw [components_of_isAbsolute rfl, locationText, stepsOf_cons_slash, stepsOf_join_names hnames]

theorem IsName.stepless_eq_false {name : Text} (h : IsName name) : stepless name = false := by
  simp [stepless, h.2.1, h.2.2.1]

theorem dropWhile_stepless_names {names : List Text} (hnames : ∀ name ∈ names, IsName name) :
    names.dropWhile stepless = names := by
  cases names with
  | nil => rfl
  | cons name names =>
    have hname := (hnames name List.mem_cons_self).stepless_eq_false
    rw [List.dropWhile_cons_of_neg (by simp [hname])]

theorem dropSteps_names {front : List Text} (hnames : ∀ name ∈ front, IsName name)
    (own : List Text) : dropSteps front.length (front ++ own) = own := by
  induction front with
  | nil => cases own <;> rfl
  | cons name front ih =>
    obtain ⟨hname, hfront⟩ := List.forall_mem_cons.mp hnames
    rw [List.cons_append, List.length_cons, dropSteps, hname.stepless_eq_false,
      if_neg Bool.false_ne_true]
    exact ih hfront

theorem dropWhile_dropSteps_cons_nil (count : Nat) (pieces : List Text) :
    (dropSteps count ([] :: pieces)).dropWhile stepless =
      (dropSteps count pieces).dropWhile stepless := by
  cases count with
  | zero => cases pieces <;> rfl
  | succ count => rfl

theorem dropTrailing_split_locationText (hnames : ∀ name ∈ location, IsName name) :
    dropTrailing (Text.split '/' (locationText location)) =
      if location = [] then [] else [] :: location := by
  split
  · rename_i hnil
    rw [hnil]
    rfl
  · rename_i hne
    obtain ⟨front, name, rfl⟩ := List.eq_nil_or_concat location |>.resolve_left hne
    have hname := (hnames name (by simp)).stepless_eq_false
    rw [split_locationText hne hnames, dropTrailing, List.concat_eq_append,
      ← List.cons_append, List.reverse_append, List.reverse_singleton, List.singleton_append,
      List.dropWhile_cons_of_neg (by simp [hname]), List.reverse_cons, List.reverse_reverse]

theorem below?_locationText {base : Text} {front own : Location}
    (hnames : ∀ name ∈ front ++ own, IsName name) (habsolute : isAbsolute base = true)
    (hbase : stepsOf base = front.map .name) :
    below? (locationText (front ++ own)) base = some (Text.join ['/'] own) := by
  have hpieces : (dropSteps front.length
      (dropTrailing (Text.split '/' (locationText (front ++ own))))).dropWhile stepless = own := by
    rw [dropTrailing_split_locationText hnames]
    rw [List.forall_mem_append] at hnames
    split
    · rename_i hnil
      obtain ⟨rfl, rfl⟩ := List.append_eq_nil_iff.mp hnil
      rfl
    · rw [dropWhile_dropSteps_cons_nil, dropSteps_names hnames.1,
        dropWhile_stepless_names hnames.2]
  rw [below?]
  dsimp only
  rw [filter_components, hbase, List.length_map, hpieces, if_neg, if_pos]
  · rw [components_of_isAbsolute habsolute, components_locationText hnames, hbase,
      List.isPrefixOf_iff_prefix, List.map_append]
    exact ⟨own.map .name, rfl⟩
  · rw [components_of_isAbsolute habsolute]
    rintro ⟨hnil, -⟩
    cases hnil

theorem below?_eq_none {base : Text} (hnames : ∀ name ∈ location, IsName name)
    (habsolute : isAbsolute base = true) (hbase : ¬ stepsOf base <+: location.map .name) :
    below? (locationText location) base = none := by
  rw [below?]
  dsimp only
  rw [if_neg, if_neg]
  · rw [components_of_isAbsolute habsolute, components_locationText hnames,
      List.isPrefixOf_iff_prefix, List.cons_prefix_cons]
    exact fun h ↦ hbase h.2
  · rw [components_of_isAbsolute habsolute]
    rintro ⟨hnil, -⟩
    cases hnil

theorem ofComponents_of_isStep {steps : List Component} (h : ∀ step ∈ steps, IsStep step) :
    ofComponents steps = Text.join ['/'] (steps.map Component.text) := by
  cases steps with
  | nil => rfl
  | cons step steps =>
    cases step with
    | root => exact (h .root List.mem_cons_self).elim
    | here => rfl
    | parent => rfl
    | name n => rfl

theorem slash_join_text {steps : List Component} (h : ∀ step ∈ steps, IsStep step) :
    slash (Text.join ['/'] (steps.map Component.text)) =
      Text.join ['/'] (steps.map Component.text) := by
  rw [slash_eq, stepsOf_join_text h]

theorem here_notMem_stepsOf (path : Text) : Component.here ∉ stepsOf path :=
  fun h ↦ isStep_of_mem_stepsOf h

theorem tidy_locationText (hnames : ∀ name ∈ location, IsName name) :
    tidy (locationText location) = locationText location := by
  have hfilter : (Component.root :: location.map .name).filter (· != .here) =
      .root :: location.map .name := by
    rw [List.filter_eq_self]
    intro step hstep
    rcases List.mem_cons.mp hstep with rfl | hstep
    · rfl
    · obtain ⟨name, -, rfl⟩ := List.mem_map.mp hstep
      rfl
  rw [tidy, components_locationText hnames, hfilter]
  dsimp only
  rw [ofComponents, map_text_names]
  rfl

theorem difference?_locationText {base : Text} (hnames : ∀ name ∈ location, IsName name)
    (habsolute : isAbsolute base = true) :
    difference? (locationText location) base =
      (stepsBetween? (location.map .name) (stepsOf base)).map ofComponents := by
  rw [difference?, if_pos habsolute, components_of_isAbsolute habsolute,
    components_locationText hnames, stepsBetween?, if_pos rfl]

theorem slash_relativeTo_locationText {base : Text} (hnames : ∀ name ∈ location, IsName name)
    (habsolute : isAbsolute base = true) :
    slash (relativeTo (locationText location) base) =
      Text.join ['/'] ((routeTo (stepsOf base) location).map Component.text) := by
  have hsteps : ∀ step ∈ routeTo (stepsOf base) location, IsStep step :=
    fun _ ↦ isStep_of_mem_routeTo hnames (here_notMem_stepsOf base)
  rw [relativeTo, if_pos (isAbsolute_locationText location)]
  by_cases hbegins : stepsOf base <+: location.map .name
  · obtain ⟨lower, hlower⟩ := hbegins
    obtain ⟨front, own, rfl, hfront, rfl⟩ := List.map_eq_append_iff.mp hlower.symm
    rw [below?_locationText hnames habsolute hfront.symm]
    have hroute : routeTo (stepsOf base) (front ++ own) = own.map .name := by
      rw [routeTo, List.map_append, hfront, stepsBetween?_append]
      rfl
    rw [hroute] at hsteps ⊢
    simpa only [map_text_names] using slash_join_text hsteps
  · rw [below?_eq_none hnames habsolute hbegins, difference?_locationText hnames habsolute]
    rw [routeTo] at hsteps ⊢
    cases hroute : stepsBetween? (location.map .name) (stepsOf base) with
    | none =>
      dsimp only [Option.map_none, Option.getD_none]
      rw [tidy_locationText hnames, slash_eq, locationText, stepsOf_cons_slash,
        stepsOf_join_names hnames]
    | some route =>
      rw [hroute] at hsteps
      dsimp only [Option.map_some, Option.getD_some] at hsteps ⊢
      rw [ofComponents_of_isStep hsteps, slash_join_text hsteps]

end LocationText

end HeaderStamp.Path
