import HeaderStamp.Proofs.FileTree.Resolution

namespace HeaderStamp.Machine

/-- The steps lead from one location to another one, with so many links followed on the way. -/
inductive Leads (tree : Folder) : Nat → Location → List Text → Location → Prop
  | arrive {here : Location} {node : Node} : tree.at? here = some node → Leads tree 0 here [] here
  | stay {links : Nat} {here place : Location} {rest : List Text} {inside : Folder} :
      tree.at? here = some (.folder inside) → Leads tree links here rest place →
      Leads tree links here (['.'] :: rest) place
  | climb {links : Nat} {here place : Location} {rest : List Text} {inside : Folder} :
      tree.at? here = some (.folder inside) → Leads tree links here.dropLast rest place →
      Leads tree links here (['.', '.'] :: rest) place
  | enter {links : Nat} {here place : Location} {step : Text} {rest : List Text}
      {inside : Folder} {node : Node} :
      tree.at? here = some (.folder inside) → step ≠ ['.'] → step ≠ ['.', '.'] →
      inside.find? step = some node → (∀ target, node ≠ .link target) →
      Leads tree links (here ++ [step]) rest place → Leads tree links here (step :: rest) place
  | follow {links : Nat} {here place : Location} {step target : Text} {rest : List Text}
      {inside : Folder} :
      tree.at? here = some (.folder inside) → step ≠ ['.'] → step ≠ ['.', '.'] →
      inside.find? step = some (.link target) → target ≠ [] →
      Leads tree links (if Path.isAbsolute target then [] else here)
        (Machine.steps target ++ rest) place →
      Leads tree (links + 1) here (step :: rest) place

section Advance

variable {tree inside : Folder} {here : Location} {last : Bool} {rest : List Text} {step : Text}

theorem advance_stay (h : tree.at? here = some (.folder inside)) :
    advance tree last here (['.'] :: rest) = advance tree last here rest := by
  simp [advance, h]

theorem advance_climb (h : tree.at? here = some (.folder inside)) :
    advance tree last here (['.', '.'] :: rest) = advance tree last here.dropLast rest := by
  simp [advance, h]

theorem advance_enter {node : Node} (h : tree.at? here = some (.folder inside))
    (hdot : step ≠ ['.']) (hparent : step ≠ ['.', '.']) (hfind : inside.find? step = some node)
    (hlink : ∀ target, node ≠ .link target) :
    advance tree last here (step :: rest) = advance tree last (here ++ [step]) rest := by
  rw [advance, h]
  simp only [if_neg hdot, if_neg hparent, hfind]

theorem advance_link {target : Text} (h : tree.at? here = some (.folder inside))
    (hdot : step ≠ ['.']) (hparent : step ≠ ['.', '.'])
    (hfind : inside.find? step = some (.link target)) (hrest : rest ≠ [] ∨ last = true) :
    advance tree last here (step :: rest) = .atLink here target rest := by
  rw [advance, h]
  simp only [if_neg hdot, if_neg hparent, hfind]
  refine if_neg fun hend ↦ ?_
  rcases hrest with hrest | hlast
  · exact hrest hend.1
  · simp [hlast] at hend

end Advance

theorem follow_congr {tree : Folder} {last : Bool} {here there : Location}
    {steps others : List Text} (h : advance tree last here steps = advance tree last there others)
    (budget : Nat) : follow tree last budget here steps = follow tree last budget there others := by
  rw [follow.eq_def, follow.eq_def tree last budget there]
  dsimp only
  rw [h]

namespace Leads

variable {tree : Folder} {links : Nat} {here place : Location} {steps : List Text}

theorem exists_folder (h : Leads tree links here steps place) (hne : steps ≠ []) :
    ∃ inside, tree.at? here = some (.folder inside) := by
  cases h with
  | arrive _ => exact absurd rfl hne
  | stay hat _ => exact ⟨_, hat⟩
  | climb hat _ => exact ⟨_, hat⟩
  | enter hat _ _ _ _ _ => exact ⟨_, hat⟩
  | follow hat _ _ _ _ _ => exact ⟨_, hat⟩

/-- A resolution goes on from where its first steps lead, with as much less to spend on links. -/
theorem follow_append (h : Leads tree links here steps place) {last : Bool} {rest : List Text}
    (hrest : rest ≠ [] ∨ last = true) (budget : Nat) :
    Machine.follow tree last (budget + links) here (steps ++ rest) =
      Machine.follow tree last budget place rest := by
  induction h with
  | arrive _ => rfl
  | stay hat _ ih =>
    rw [List.cons_append, follow_congr (advance_stay hat)]
    exact ih
  | climb hat _ ih =>
    rw [List.cons_append, follow_congr (advance_climb hat)]
    exact ih
  | enter hat hdot hparent hfind hlink _ ih =>
    rw [List.cons_append, follow_congr (advance_enter hat hdot hparent hfind hlink)]
    exact ih
  | @follow links here place step target front inside hat hdot hparent hfind htarget _ ih =>
    have hend : front ++ rest ≠ [] ∨ last = true :=
      hrest.imp_left fun hne ↦ List.append_ne_nil_of_right_ne_nil front hne
    rw [List.cons_append, Machine.follow.eq_def]
    dsimp only
    rw [advance_link hat hdot hparent hfind hend]
    dsimp only [Nat.add_succ]
    rw [if_neg htarget, ← List.append_assoc]
    exact ih

theorem append (h : Leads tree links here steps place) {more : Nat} {rest : List Text}
    {last : Location} (hrest : Leads tree more place rest last) :
    Leads tree (links + more) here (steps ++ rest) last := by
  induction h with
  | arrive _ =>
    rw [Nat.zero_add]
    exact hrest
  | stay hat _ ih => exact .stay hat (ih hrest)
  | climb hat _ ih => exact .climb hat (ih hrest)
  | enter hat hdot hparent hfind hlink _ ih =>
    exact .enter hat hdot hparent hfind hlink (ih hrest)
  | follow hat hdot hparent hfind htarget _ ih =>
    rw [Nat.add_right_comm]
    have hmore := ih hrest
    rw [List.append_assoc] at hmore
    exact .follow hat hdot hparent hfind htarget hmore

/-- What leads somewhere can be parted after any of its steps. -/
theorem split {front rest : List Text} (h : Leads tree links here (front ++ rest) place) :
    ∃ first second middle, links = first + second ∧ Leads tree first here front middle ∧
      Leads tree second middle rest place := by
  generalize hsteps : front ++ rest = steps at h
  induction h generalizing front with
  | @arrive here node hat =>
    obtain ⟨rfl, rfl⟩ := List.append_eq_nil_iff.mp hsteps
    exact ⟨0, 0, here, rfl, .arrive hat, .arrive hat⟩
  | @stay links here place steps inside hat hrest ih =>
    rcases List.append_eq_cons_iff.mp hsteps with ⟨rfl, rfl⟩ | ⟨front, rfl, rfl⟩
    · exact ⟨0, links, here, (Nat.zero_add _).symm, .arrive hat, .stay hat hrest⟩
    · obtain ⟨first, second, middle, hlinks, hfirst, hsecond⟩ := ih rfl
      exact ⟨first, second, middle, hlinks, .stay hat hfirst, hsecond⟩
  | @climb links here place steps inside hat hrest ih =>
    rcases List.append_eq_cons_iff.mp hsteps with ⟨rfl, rfl⟩ | ⟨front, rfl, rfl⟩
    · exact ⟨0, links, here, (Nat.zero_add _).symm, .arrive hat, .climb hat hrest⟩
    · obtain ⟨first, second, middle, hlinks, hfirst, hsecond⟩ := ih rfl
      exact ⟨first, second, middle, hlinks, .climb hat hfirst, hsecond⟩
  | @enter links here place step steps inside node hat hdot hparent hfind hlink hrest ih =>
    rcases List.append_eq_cons_iff.mp hsteps with ⟨rfl, rfl⟩ | ⟨front, rfl, rfl⟩
    · exact ⟨0, links, here, (Nat.zero_add _).symm, .arrive hat,
        .enter hat hdot hparent hfind hlink hrest⟩
    · obtain ⟨first, second, middle, hlinks, hfirst, hsecond⟩ := ih rfl
      exact ⟨first, second, middle, hlinks, .enter hat hdot hparent hfind hlink hfirst, hsecond⟩
  | @follow links here place step target steps inside hat hdot hparent hfind htarget hrest ih =>
    rcases List.append_eq_cons_iff.mp hsteps with ⟨rfl, rfl⟩ | ⟨front, rfl, rfl⟩
    · exact ⟨0, links + 1, here, (Nat.zero_add _).symm, .arrive hat,
        .follow hat hdot hparent hfind htarget hrest⟩
    · obtain ⟨first, second, middle, hlinks, hfirst, hsecond⟩ :=
        ih (List.append_assoc (Machine.steps target) front rest)
      refine ⟨first + 1, second, middle, ?_, .follow hat hdot hparent hfind htarget hfirst,
        hsecond⟩
      omega

theorem drop_dot {front rest : List Text}
    (h : Leads tree links here (front ++ ['.'] :: rest) place) :
    Leads tree links here (front ++ rest) place := by
  obtain ⟨first, second, middle, rfl, hfirst, hsecond⟩ := h.split
  cases hsecond with
  | stay hat hrest => exact hfirst.append hrest
  | enter _ hdot _ _ _ _ => exact absurd rfl hdot
  | follow _ hdot _ _ _ _ => exact absurd rfl hdot

theorem exists_folder_here {inside : Folder} (h : Leads tree links here steps place)
    (hplace : tree.at? place = some (.folder inside)) :
    ∃ outer, tree.at? here = some (.folder outer) := by
  by_cases hne : steps = []
  · subst hne
    cases h with
    | arrive _ => exact ⟨inside, hplace⟩
  · exact h.exists_folder hne

theorem add_dot {inside : Folder} {front rest : List Text}
    (h : Leads tree links here (front ++ rest) place)
    (hplace : tree.at? place = some (.folder inside)) :
    Leads tree links here (front ++ ['.'] :: rest) place := by
  obtain ⟨first, second, middle, rfl, hfirst, hsecond⟩ := h.split
  obtain ⟨outer, hmiddle⟩ := hsecond.exists_folder_here hplace
  exact hfirst.append (.stay hmiddle hsecond)

theorem filter_dots {R : List Text → List Text → Prop} (refl : ∀ steps, R steps steps)
    (trans : ∀ {first second third}, R first second → R second third → R first third)
    (drop : ∀ front rest, R (front ++ ['.'] :: rest) (front ++ rest)) (steps : List Text) :
    R steps (steps.filter (· ≠ ['.'])) := by
  have hfront : ∀ front rest : List Text, R (front ++ rest) (front ++ rest.filter (· ≠ ['.'])) := by
    intro front rest
    induction rest generalizing front with
    | nil => exact refl _
    | cons step rest ih =>
      by_cases hdot : step = ['.']
      · subst hdot
        exact trans (drop front rest) (ih front)
      · rw [List.filter_cons_of_pos (by simpa using hdot)]
        simpa using ih (front ++ [step])
  exact hfront [] steps

theorem drop_dots (h : Leads tree links here steps place) :
    Leads tree links here (steps.filter (· ≠ ['.'])) place :=
  filter_dots (R := fun before after ↦
      Leads tree links here before place → Leads tree links here after place)
    (fun _ ↦ id) (fun hfirst hsecond ↦ hsecond ∘ hfirst) (fun _ _ ↦ drop_dot) steps h

theorem add_dots {inside : Folder} (h : Leads tree links here (steps.filter (· ≠ ['.'])) place)
    (hplace : tree.at? place = some (.folder inside)) : Leads tree links here steps place :=
  filter_dots (R := fun before after ↦
      Leads tree links here after place → Leads tree links here before place)
    (fun _ ↦ id) (fun hfirst hsecond ↦ hfirst ∘ hsecond) (fun _ _ h ↦ h.add_dot hplace) steps h

end Leads

theorem leads_of_advance {tree : Folder} {here place : Location} {node : Node}
    {steps : List Text} (h : advance tree true here steps = .arrived (.present place node)) :
    Leads tree 0 here steps place := by
  fun_induction advance tree true here steps with
  | case1 here found hat =>
    cases h
    exact .arrive hat
  | case3 here rest inside hat ih => exact .stay hat (ih h)
  | case4 here rest inside hat _ ih => exact .climb hat (ih h)
  | case9 here step rest inside hat hdot hparent found hlink hfind ih =>
    exact .enter hat hdot hparent hfind hlink (ih h)
  | case7 here step rest inside hat _ _ target hfind hrest => simp at hrest
  | case2 | case5 | case6 | case8 | case10 | case11 => cases h

theorem leads_of_advance_link {tree : Folder} {links : Nat} {here folder place : Location}
    {target : Text} {steps after : List Text}
    (h : advance tree true here steps = .atLink folder target after) (htarget : target ≠ [])
    (hrest : Leads tree links (if Path.isAbsolute target then [] else folder)
      (Machine.steps target ++ after) place) : Leads tree (links + 1) here steps place := by
  fun_induction advance tree true here steps with
  | case3 here rest inside hat ih => exact .stay hat (ih h)
  | case4 here rest inside hat _ ih => exact .climb hat (ih h)
  | case8 here step rest inside hat hdot hparent found hfind _ =>
    cases h
    exact .follow hat hdot hparent hfind htarget hrest
  | case9 here step rest inside hat hdot hparent found hlink hfind ih =>
    exact .enter hat hdot hparent hfind hlink (ih h)
  | case1 | case2 | case5 | case6 | case7 | case10 | case11 => cases h

theorem exists_leads_of_follow {tree : Folder} {budget : Nat} {here place : Location}
    {node : Node} {steps : List Text}
    (h : follow tree true budget here steps = .ok (.present place node)) :
    ∃ links ≤ budget, Leads tree links here steps place := by
  fun_induction follow tree true budget here steps with
  | case1 budget here steps found harrived =>
    cases h
    exact ⟨0, Nat.zero_le _, leads_of_advance harrived⟩
  | case5 here steps folder target rest hlink budget hne ih =>
    obtain ⟨links, hlinks, hleads⟩ := ih h
    exact ⟨links + 1, Nat.succ_le_succ hlinks, leads_of_advance_link hlink hne hleads⟩
  | case2 | case3 | case4 => cases h

/-- A resolution with links followed to the end succeeds where the steps lead with no more links
than it may follow. -/
theorem follow_eq_present_iff {tree : Folder} {budget : Nat} {here place : Location}
    {node : Node} {steps : List Text} :
    follow tree true budget here steps = .ok (.present place node) ↔
      tree.at? place = some node ∧ ∃ links ≤ budget, Leads tree links here steps place := by
  constructor
  · intro h
    exact ⟨at?_of_follow h, exists_leads_of_follow h⟩
  · rintro ⟨hat, links, hlinks, hleads⟩
    obtain ⟨left, rfl⟩ := Nat.exists_eq_add_of_le' hlinks
    have hfollow : follow tree true (left + links) here (steps ++ []) =
        follow tree true left place [] := hleads.follow_append (.inr rfl) left
    rw [List.append_nil] at hfollow
    rw [hfollow, follow.eq_def]
    dsimp only
    rw [advance.eq_def]
    dsimp only
    rw [hat]

theorem Leads.unique {tree : Folder} {links more : Nat} {here place other : Location}
    {node another : Node} {steps : List Text} (h : Leads tree links here steps place)
    (hplace : tree.at? place = some node) (hmore : Leads tree more here steps other)
    (hother : tree.at? other = some another) : place = other := by
  have hfirst := follow_eq_present_iff.mpr ⟨hplace, links, Nat.le_max_left links more, h⟩
  have hsecond := follow_eq_present_iff.mpr ⟨hother, more, Nat.le_max_right links more, hmore⟩
  rw [hfirst] at hsecond
  cases hsecond
  rfl

end HeaderStamp.Machine
