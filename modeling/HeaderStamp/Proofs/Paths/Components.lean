import HeaderStamp.Paths
import HeaderStamp.Proofs.Text.Pieces

namespace HeaderStamp

namespace Path

def IsName (piece : Text) : Prop :=
  '/' ∉ piece ∧ piece ≠ [] ∧ piece ≠ ['.'] ∧ piece ≠ ['.', '.']

instance (piece : Text) : Decidable (IsName piece) := inferInstanceAs (Decidable (_ ∧ _))

theorem IsName.ofPiece? {piece : Text} (h : IsName piece) :
    Component.ofPiece? piece = some (.name piece) := by
  obtain ⟨-, hempty, hdot, hparent⟩ := h
  rw [Component.ofPiece?, if_neg (by simp [hempty, hdot]), if_neg hparent]

theorem IsName.isAbsolute_eq_false {name : Text} (h : IsName name) : isAbsolute name = false := by
  obtain ⟨c, rest, rfl⟩ := List.exists_cons_of_ne_nil h.2.1
  have hc : c ≠ '/' := fun hc ↦ h.1 (hc ▸ List.mem_cons_self)
  simp [isAbsolute, hc]

def IsStep : Component → Prop
  | .name n => IsName n
  | .parent => True
  | .root => False
  | .here => False

theorem IsStep.ofPiece?_text {step : Component} (h : IsStep step) :
    Component.ofPiece? step.text = some step := by
  cases step with
  | name n => exact h.ofPiece?
  | parent => rfl
  | root => exact h.elim
  | here => exact h.elim

theorem IsStep.slash_notMem_text {step : Component} (h : IsStep step) : '/' ∉ step.text := by
  cases step with
  | name n => exact h.1
  | parent => decide
  | root => exact h.elim
  | here => exact h.elim

theorem isStep_of_ofPiece? {piece : Text} {step : Component} (hslash : '/' ∉ piece)
    (h : Component.ofPiece? piece = some step) : IsStep step ∧ step.text = piece := by
  rw [Component.ofPiece?] at h
  split at h
  · cases h
  · rename_i hne
    rw [not_or] at hne
    split at h
    · rename_i hparent
      cases h
      exact ⟨trivial, hparent.symm⟩
    · rename_i hparent
      cases h
      exact ⟨⟨hslash, hne.1, hne.2, hparent⟩, rfl⟩

theorem ofPiece?_eq_none_iff {piece : Text} :
    Component.ofPiece? piece = none ↔ piece = [] ∨ piece = ['.'] := by
  rw [Component.ofPiece?]
  split
  · rename_i h
    exact iff_of_true rfl h
  · rename_i h
    split <;> exact iff_of_false (by simp) h

def stepsOf (path : Text) : List Component :=
  (Text.split '/' path).filterMap Component.ofPiece?

def start (path : Text) : List Component :=
  if isAbsolute path then [.root]
  else if (Text.split '/' path).head? = some ['.'] then [.here]
  else []

theorem components_eq (path : Text) : components path = start path ++ stepsOf path := by
  rw [components, start, stepsOf]
  split
  · rfl
  · split <;> rfl

theorem components_of_isAbsolute {path : Text} (h : isAbsolute path = true) :
    components path = .root :: stepsOf path := by
  rw [components_eq, start, if_pos h]
  rfl

theorem isStep_of_mem_stepsOf {path : Text} {step : Component} (h : step ∈ stepsOf path) :
    IsStep step := by
  obtain ⟨piece, hpiece, hstep⟩ := List.mem_filterMap.mp h
  exact (isStep_of_ofPiece? (Text.notMem_of_mem_split hpiece) hstep).1

theorem not_isStep_of_mem_start {path : Text} {step : Component} (h : step ∈ start path) :
    ¬ IsStep step := by
  rw [start] at h
  split at h
  · rw [List.mem_singleton.mp h]
    exact id
  · split at h
    · rw [List.mem_singleton.mp h]
      exact id
    · cases h

theorem filter_components (path : Text) :
    (components path).filter (fun step ↦ step != .root && step != .here) = stepsOf path := by
  have hstart : (start path).filter (fun step ↦ step != .root && step != .here) = [] := by
    rw [start]
    split
    · rfl
    · split <;> rfl
  rw [components_eq, List.filter_append, hstart, List.nil_append, List.filter_eq_self]
  intro step hstep
  have hstep := isStep_of_mem_stepsOf hstep
  cases step with
  | name n => rfl
  | parent => rfl
  | root => exact hstep.elim
  | here => exact hstep.elim

theorem isAbsolute_iff_root_mem (path : Text) :
    isAbsolute path = true ↔ .root ∈ components path := by
  rw [components_eq, List.mem_append, start]
  constructor
  · intro h
    rw [if_pos h]
    exact .inl (List.mem_singleton_self _)
  · rintro (hstart | hstep)
    · by_contra hrelative
      rw [if_neg hrelative] at hstart
      split at hstart
      · cases List.mem_singleton.mp hstart
      · cases hstart
    · exact (isStep_of_mem_stepsOf hstep).elim

@[simp] theorem stepsOf_nil : stepsOf [] = [] := rfl

theorem stepsOf_append_slash (front rest : Text) :
    stepsOf (front ++ '/' :: rest) = stepsOf front ++ stepsOf rest := by
  rw [stepsOf, Text.split_append_separator, List.filterMap_append]
  rfl

theorem stepsOf_cons_slash (rest : Text) : stepsOf ('/' :: rest) = stepsOf rest :=
  stepsOf_append_slash [] rest

theorem stepsOf_text {step : Component} (h : IsStep step) : stepsOf step.text = [step] := by
  rw [stepsOf, Text.split_of_notMem h.slash_notMem_text, List.filterMap_cons, h.ofPiece?_text]
  rfl

theorem split_join_text {steps : List Component} (hne : steps ≠ [])
    (h : ∀ step ∈ steps, IsStep step) :
    Text.split '/' (Text.join ['/'] (steps.map Component.text)) = steps.map Component.text := by
  refine Text.split_join_of_notMem (by simpa using hne) fun piece hpiece ↦ ?_
  obtain ⟨step, hstep, rfl⟩ := List.mem_map.mp hpiece
  exact (h step hstep).slash_notMem_text

theorem stepsOf_join (pieces : List Text) :
    stepsOf (Text.join ['/'] pieces) = pieces.flatMap stepsOf := by
  cases pieces with
  | nil => rfl
  | cons piece pieces =>
    rw [stepsOf, Text.split_join '/' (List.cons_ne_nil _ _), List.filterMap_flatMap]
    rfl

theorem stepsOf_join_text {steps : List Component} (h : ∀ step ∈ steps, IsStep step) :
    stepsOf (Text.join ['/'] (steps.map Component.text)) = steps := by
  rw [stepsOf_join, List.flatMap_map]
  induction steps with
  | nil => rfl
  | cons step steps ih =>
    obtain ⟨hstep, hsteps⟩ := List.forall_mem_cons.mp h
    rw [List.flatMap_cons, stepsOf_text hstep, ih hsteps]
    rfl

theorem join_text_inj {steps others : List Component} (hsteps : ∀ step ∈ steps, IsStep step)
    (hothers : ∀ step ∈ others, IsStep step)
    (h : Text.join ['/'] (steps.map Component.text) = Text.join ['/'] (others.map Component.text)) :
    steps = others := by
  rw [← stepsOf_join_text hsteps, h, stepsOf_join_text hothers]

theorem stepsOf_append {base path : Text} (h : isAbsolute path = false) :
    stepsOf (append base path) = stepsOf base ++ stepsOf path := by
  rw [append, h, if_neg Bool.false_ne_true]
  split
  · rename_i hbase
    rcases hbase with rfl | hslash
    · rfl
    · obtain ⟨front, rfl⟩ := List.getLast?_eq_some_iff.mp hslash
      rw [List.append_assoc, List.singleton_append, stepsOf_append_slash, stepsOf_append_slash,
        stepsOf_nil, List.append_nil]
  · exact stepsOf_append_slash base path

theorem isAbsolute_append {base path : Text} (hbase : isAbsolute base = true) :
    isAbsolute (append base path) = true := by
  rw [append]
  split
  · assumption
  · obtain ⟨rest, rfl⟩ : ∃ rest, base = '/' :: rest := by
      cases base with
      | nil => cases hbase
      | cons c rest =>
        rw [isAbsolute, List.head?_cons, decide_eq_true_eq, Option.some.injEq] at hbase
        exact ⟨rest, by rw [hbase]⟩
    split <;> rfl

theorem components_join_text {steps : List Component} (h : ∀ step ∈ steps, IsStep step) :
    components (Text.join ['/'] (steps.map Component.text)) = steps := by
  have hstart : start (Text.join ['/'] (steps.map Component.text)) = [] := by
    cases steps with
    | nil => rfl
    | cons step steps =>
      have hpiece := (h step List.mem_cons_self).ofPiece?_text
      have hsplit := split_join_text (List.cons_ne_nil step steps) h
      rw [List.map_cons] at hsplit
      rw [List.map_cons, start, hsplit, if_neg, if_neg]
      · intro hdot
        rw [List.head?_cons, Option.some.injEq] at hdot
        rw [ofPiece?_eq_none_iff.mpr (.inr hdot)] at hpiece
        cases hpiece
      · intro habsolute
        generalize Text.join ['/'] (step.text :: steps.map Component.text) = path
          at habsolute hsplit
        cases path with
        | nil => cases habsolute
        | cons c rest =>
          rw [isAbsolute, List.head?_cons, decide_eq_true_eq, Option.some.injEq] at habsolute
          rw [Text.split, if_pos habsolute, List.cons.injEq] at hsplit
          rw [ofPiece?_eq_none_iff.mpr (.inl hsplit.1.symm)] at hpiece
          cases hpiece
  rw [components_eq, hstart, stepsOf_join_text h]
  rfl

theorem slashOf_eq {steps : List Component} (h : ∀ step ∈ steps, IsStep step) :
    slashOf steps = Text.join ['/'] (steps.map Component.text) := by
  rw [slashOf, ← List.filterMap_eq_map]
  congr 1
  refine List.filterMap_congr fun step hstep ↦ ?_
  cases step with
  | name n => rfl
  | parent => rfl
  | root => exact (h _ hstep).elim
  | here => exact (h _ hstep).elim

theorem slash_eq (path : Text) :
    slash path = Text.join ['/'] ((stepsOf path).map Component.text) := by
  have hstart : slashOf (start path ++ stepsOf path) = slashOf (stepsOf path) := by
    rw [start]
    split
    · rfl
    · split <;> rfl
  rw [slash, components_eq, hstart, slashOf_eq fun step ↦ isStep_of_mem_stepsOf]

theorem components_slash (path : Text) : components (slash path) = stepsOf path := by
  rw [slash_eq, components_join_text fun step ↦ isStep_of_mem_stepsOf]

theorem fileName?_eq_some_iff {path name : Text} :
    fileName? path = some name ↔ (stepsOf path).getLast? = some (.name name) := by
  have hlast : fileName? path = some name ↔ (components path).getLast? = some (.name name) := by
    rw [fileName?]
    split
    · rename_i last hsome
      rw [hsome, Option.some.injEq, Option.some.injEq, Component.name.injEq]
    · rename_i hnone
      exact iff_of_false (by simp) (hnone name)
  rw [hlast, components_eq, List.getLast?_append]
  cases hsteps : (stepsOf path).getLast? with
  | some step => rfl
  | none =>
    refine iff_of_false (fun hstart ↦ ?_) (by simp)
    rw [Option.none_or, start] at hstart
    split at hstart
    · cases hstart
    · split at hstart <;> cases hstart

/-- The path leads through a directory of this name. -/
def GoesThrough (name path : Text) : Prop := .name name ∈ (components path).dropLast

instance (name path : Text) : Decidable (GoesThrough name path) :=
  inferInstanceAs (Decidable (_ ∈ _))

theorem components_eq_append_getLast (path : Text) :
    components path =
      start path ++ (Text.split '/' path).dropLast.filterMap Component.ofPiece? ++
        (Component.ofPiece?
          ((Text.split '/' path).getLast (Text.split_ne_nil '/' path))).toList := by
  conv_lhs =>
    rw [components_eq, stepsOf, ← List.dropLast_append_getLast (Text.split_ne_nil '/' path)]
  rw [List.filterMap_append, List.append_assoc]
  congr 2

theorem name_mem_filterMap_iff {name : Text} (hname : IsName name) {pieces : List Text} :
    .name name ∈ pieces.filterMap Component.ofPiece? ↔ name ∈ pieces := by
  rw [List.mem_filterMap]
  constructor
  · rintro ⟨piece, hpiece, hstep⟩
    rw [Component.ofPiece?] at hstep
    split at hstep
    · cases hstep
    · split at hstep
      · cases hstep
      · cases hstep
        exact hpiece
  · intro h
    exact ⟨name, h, hname.ofPiece?⟩

theorem name_mem_start_append_iff {name : Text} (path : Text) (hname : IsName name)
    {pieces : List Text} :
    .name name ∈ start path ++ pieces.filterMap Component.ofPiece? ↔ name ∈ pieces := by
  rw [List.mem_append, name_mem_filterMap_iff hname]
  exact or_iff_right fun h ↦ not_isStep_of_mem_start h hname

theorem mem_dropLast_split_of_goesThrough {name path : Text} (hname : IsName name)
    (h : GoesThrough name path) : name ∈ (Text.split '/' path).dropLast := by
  rw [GoesThrough, components_eq_append_getLast] at h
  rw [← name_mem_start_append_iff path hname]
  cases hlast : Component.ofPiece? ((Text.split '/' path).getLast (Text.split_ne_nil '/' path)) with
  | none =>
    rw [hlast, Option.toList_none, List.append_nil] at h
    exact List.mem_of_mem_dropLast h
  | some step =>
    rw [hlast, Option.toList_some, List.dropLast_concat] at h
    exact h

/-- A path that ends in a step goes through the directories that stand before a slash in it. -/
theorem goesThrough_iff {name path : Text} (hname : IsName name)
    (hlast : Component.ofPiece? ((Text.split '/' path).getLast (Text.split_ne_nil '/' path)) ≠
      none) : GoesThrough name path ↔ name ∈ (Text.split '/' path).dropLast := by
  refine ⟨mem_dropLast_split_of_goesThrough hname, fun h ↦ ?_⟩
  obtain ⟨step, hstep⟩ := Option.ne_none_iff_exists'.mp hlast
  rw [GoesThrough, components_eq_append_getLast, hstep, Option.toList_some, List.dropLast_concat,
    name_mem_start_append_iff path hname]
  exact h

theorem goesThrough_slash_iff {name path : Text} (hname : IsName name) :
    GoesThrough name (slash path) ↔ name ∈ (Text.split '/' (slash path)).dropLast := by
  by_cases hnil : stepsOf path = []
  · rw [GoesThrough, components_slash, hnil, slash_eq, hnil]
    simp [Text.join, Text.split]
  · refine goesThrough_iff hname ?_
    have hsplit : Text.split '/' (slash path) = (stepsOf path).map Component.text := by
      rw [slash_eq, split_join_text hnil fun step ↦ isStep_of_mem_stepsOf]
    simp only [hsplit, List.getLast_map]
    rw [(isStep_of_mem_stepsOf (List.getLast_mem hnil)).ofPiece?_text]
    exact Option.some_ne_none _

end Path

end HeaderStamp
