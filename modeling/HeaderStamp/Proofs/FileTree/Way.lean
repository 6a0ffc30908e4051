import HeaderStamp.Proofs.FileTree.Entry

namespace HeaderStamp.Machine

open HeaderStamp.Path

variable {machine : Machine}

section Written

theorem steps_join_text {way : List Component} (hne : way ≠ []) (hway : ∀ step ∈ way, IsStep step) :
    steps (Text.join ['/'] (way.map Component.text)) = way.map Component.text := by
  have hpieces := split_join_text hne hway
  have htext : ∀ {step}, step ∈ way → step.text ≠ [] := by
    intro step hstep hnil
    have hpiece := (hway step hstep).ofPiece?_text
    rw [ofPiece?_eq_none_iff.mpr (.inl hnil)] at hpiece
    cases hpiece
  have hend := Text.getLast_split_eq_nil_iff '/' (Text.join ['/'] (way.map Component.text))
  simp only [hpieces, List.getLast_map, htext (List.getLast_mem hne), false_iff, not_or] at hend
  rw [steps]
  rw [if_neg hend.2, hpieces, List.filter_eq_self]
  intro text htextMem
  obtain ⟨step, hstep, rfl⟩ := List.mem_map.mp htextMem
  simpa using htext hstep

theorem steps_cons_slash {path : Text} (hne : path ≠ []) : steps ('/' :: path) = steps path := by
  obtain ⟨c, rest, rfl⟩ := List.exists_cons_of_ne_nil hne
  rw [steps, steps, List.getLast?_cons_cons, Text.split, if_pos rfl,
    List.filter_cons_of_neg (by simp)]

theorem join_ne_nil {way : List Component} (hne : way ≠ []) (hway : ∀ step ∈ way, IsStep step) :
    Text.join ['/'] (way.map Component.text) ≠ [] := by
  intro hnil
  have hsteps := stepsOf_join_text hway
  rw [hnil, stepsOf_nil] at hsteps
  exact hne hsteps.symm

theorem split_climb {names : Location} (climb : Nat) (hne : names ≠ [])
    (hnames : ∀ name ∈ names, IsName name) :
    Text.split '/' (Text.join ['/'] (List.replicate climb ['.', '.'] ++ names)) =
      List.replicate climb ['.', '.'] ++ names := by
  apply Text.split_join_of_notMem
  · simp [hne]
  · intro piece hpiece
    rcases List.mem_append.mp hpiece with hclimb | hname
    · rw [List.eq_of_mem_replicate hclimb]
      simp
    · exact (hnames piece hname).1

variable {tree : Folder} {here aside folder : Location} {inside : Folder} {name : Text}

theorem leads_climb (h : tree.at? (here ++ aside) = some (.folder inside)) :
    Leads tree 0 (here ++ aside) (List.replicate aside.length ['.', '.']) here := by
  induction aside using List.reverseRecOn generalizing inside with
  | nil =>
    rw [List.append_nil] at h ⊢
    exact .arrive h
  | append_singleton aside last ih =>
    rw [← List.append_assoc] at h ⊢
    obtain ⟨above, habove⟩ := exists_folder_dropLast h
    rw [List.dropLast_concat] at habove
    rw [List.length_append, List.length_singleton, List.replicate_succ]
    refine .climb h ?_
    rw [List.dropLast_concat]
    exact ih habove

theorem Lawful.names_locationText (h : machine.Lawful) {node : Node}
    (hat : machine.tree.at? (folder ++ [name]) = some node) :
    machine.Names (locationText (folder ++ [name])) folder name := by
  obtain ⟨inside, hfolder⟩ := Folder.exists_folder_of_at?_append (List.cons_ne_nil name []) hat
  have hnames := h.names hat
  have hway := isStep_names hnames
  have hne : (folder ++ [name]).map Component.name ≠ [] := by simp
  have hsteps := steps_join_text hne hway
  have htext := join_ne_nil hne hway
  rw [map_text_names] at hsteps htext
  refine ⟨hnames name (by simp), ⟨inside, node, hfolder, ?_⟩, folder, ?_, 0, Nat.zero_le _, ?_⟩
  · rw [← hat, Folder.at?_concat hfolder]
  · rw [locationText, steps_cons_slash htext, hsteps]
  · exact h.tree.leads hfolder fun _ ↦ Node.noConfusion

theorem Lawful.names_way (h : machine.Lawful) {node : Node} (hcwd : machine.cwd = here ++ aside)
    (hat : machine.tree.at? (here ++ folder ++ [name]) = some node) :
    machine.Names
      (Text.join ['/'] (List.replicate aside.length ['.', '.'] ++ (folder ++ [name])))
      (here ++ folder) name := by
  obtain ⟨inside, hfolder⟩ := Folder.exists_folder_of_at?_append (List.cons_ne_nil name []) hat
  obtain ⟨outer, houter⟩ := h.cwd
  rw [hcwd] at houter
  have hnames : ∀ n ∈ folder ++ [name], IsName n := by
    intro n hn
    rw [List.append_assoc] at hat
    exact h.names hat n (List.mem_append_right here hn)
  have hway : ∀ step ∈ List.replicate aside.length Component.parent ++
      (folder ++ [name]).map Component.name, IsStep step := by
    intro step hstep
    rcases List.mem_append.mp hstep with hclimb | hname
    · rw [List.eq_of_mem_replicate hclimb]
      trivial
    · exact isStep_names hnames step hname
  have hsteps := steps_join_text (by simp) hway
  have hcomponents := components_join_text hway
  rw [List.map_append, map_text_names, List.map_replicate, Component.text] at hsteps hcomponents
  refine ⟨hnames name (by simp), ⟨inside, node, hfolder, ?_⟩,
    List.replicate aside.length ['.', '.'] ++ folder, ?_, 0 + 0, Nat.zero_le _, ?_⟩
  · rw [← hat, Folder.at?_concat hfolder]
  · rw [hsteps, List.append_assoc]
  · have hrelative : machine.origin (Text.join ['/']
        (List.replicate aside.length ['.', '.'] ++ (folder ++ [name]))) = here ++ aside := by
      rw [origin, if_neg, hcwd]
      rw [isAbsolute_iff_root_mem, hcomponents]
      simp
    rw [hrelative]
    exact (leads_climb houter).append (h.tree.leads hfolder fun _ ↦ Node.noConfusion)

end Written

theorem base_eq {root : Text} {place : Location} {node : Node}
    (h : machine.locate (machine.absolute root) = .ok (.present place node)) :
    machine.base root = locationText place := by
  rw [base, canonical?, h]
  rfl

namespace Lawful

variable {folder : Location} {name : Text} {node : Node}

theorem locate_locationText (h : machine.Lawful) {place : Location} {inside : Folder}
    (hat : machine.tree.at? place = some (.folder inside)) :
    machine.locate (locationText place) = .ok (.present place (.folder inside)) := by
  have hleads : Leads machine.tree 0 [] place place :=
    h.tree.leads hat fun _ ↦ Node.noConfusion
  refine locate_eq_present_iff.mpr ⟨List.cons_ne_nil _ _, hat, 0, Nat.zero_le _, ?_⟩
  refine Leads.of_texts ?_ hat
  rw [locationText, stepsOf_cons_slash, stepsOf_join_names (h.names hat), map_text_names]
  exact hleads

theorem base_cwdText (h : machine.Lawful) : machine.base machine.cwdText = machine.cwdText := by
  obtain ⟨inside, hcwd⟩ := h.cwd
  exact base_eq (h.locate_locationText hcwd)

theorem split_absolute (h : machine.Lawful) {path : Text} (hpath : isAbsolute path = false) :
    Text.split '/' (machine.absolute path) = ([] :: machine.cwd) ++ Text.split '/' path := by
  rw [absolute, hpath, if_neg Bool.false_ne_true, Path.append, hpath,
    if_neg Bool.false_ne_true, cwdText]
  by_cases hcwd : machine.cwd = []
  · rw [hcwd]
    rfl
  · rw [if_neg, Text.split_append_separator, split_locationText hcwd h.cwd_names]
    exact not_or.mpr ⟨List.cons_ne_nil _ _, getLast?_locationText_ne hcwd h.cwd_names⟩

theorem relative_eq_join (h : machine.Lawful)
    (hat : machine.tree.at? (folder ++ [name]) = some node) {root : Text} {base below : Location}
    {top : Node} (hroot : machine.locate (machine.absolute root) = .ok (.present base top))
    (hbelow : folder ++ [name] = base ++ below) :
    machine.relative (locationText (folder ++ [name])) root = Text.join ['/'] below := by
  have hbase : ∀ name ∈ base, IsName name :=
    h.names (locate_eq_present_iff.mp hroot).2.1
  rw [(h.names_locationText hat).relative h, base_eq hroot, locationText, stepsOf_cons_slash,
    stepsOf_join_names hbase, routeTo, hbelow, List.map_append, stepsBetween?_append,
    Option.getD_some, map_text_names]

theorem not_folder_of_isFile (h : machine.Lawful) {place : Location}
    (hfile : machine.isFile (locationText place) = true) (inside : Folder) :
    machine.tree.at? place ≠ some (.folder inside) := by
  intro hat
  obtain ⟨other, bytes, hlocate⟩ := isFile_iff.mp hfile
  rw [h.locate_locationText hat] at hlocate
  cases hlocate

theorem not_prefix_cwd_of_isFile (h : machine.Lawful) {place : Location}
    (hfile : machine.isFile (locationText place) = true) : ¬ place <+: machine.cwd := by
  intro hprefix
  obtain ⟨inside, hcwd⟩ := h.cwd
  obtain ⟨outer, houter⟩ := Folder.exists_folder_of_prefix hprefix hcwd
  exact h.not_folder_of_isFile hfile outer houter

/-- An entry that is not the base or above it is printed as a climb to what the two locations share
and the names from there. -/
theorem exists_climb (h : machine.Lawful) {path root : Text} {base : Location}
    (hnamed : machine.Names path folder name) (hroot : machine.base root = locationText base)
    (hnames : ∀ name ∈ base, IsName name) (habove : ¬ folder ++ [name] <+: base) :
    ∃ aside own, base = shared base (folder ++ [name]) ++ aside ∧
      folder ++ [name] = shared base (folder ++ [name]) ++ own ++ [name] ∧
      machine.relative path root =
        Text.join ['/'] (List.replicate aside.length ['.', '.'] ++ (own ++ [name])) := by
  obtain ⟨aside, own, hbase, hplace, hroute⟩ := exists_parts_shared base (folder ++ [name])
  have hown : own ≠ [] := by
    rintro rfl
    rw [List.append_nil] at hplace
    apply habove
    rw [hplace]
    exact ⟨aside, hbase.symm⟩
  obtain ⟨own, last, rfl⟩ := (List.eq_nil_or_concat own).resolve_left hown
  rw [List.concat_eq_append, ← List.append_assoc] at hplace
  have hlast : last = name := (List.singleton_inj.mp (List.append_inj' hplace rfl).2).symm
  subst hlast
  refine ⟨aside, own, hbase, hplace, ?_⟩
  rw [hnamed.relative h, hroot, locationText, stepsOf_cons_slash, stepsOf_join_names hnames,
    routeTo, hroute, Option.getD_some, List.map_append, map_text_names, List.map_const',
    List.map_replicate, List.concat_eq_append]
  rfl

/-- Seen from the working directory, a file is reached by climbing to what the two locations share,
and this way names it as well as its location does. -/
theorem exists_way (h : machine.Lawful) {place : Location}
    (hat : machine.tree.at? place = some node)
    (hfile : machine.isFile (locationText place) = true) :
    ∃ climb own name, IsName name ∧ place = shared machine.cwd place ++ (own ++ [name]) ∧
      Text.split '/' (machine.relative (locationText place) machine.cwdText) =
        List.replicate climb ['.', '.'] ++ (own ++ [name]) ∧
      ∀ root, machine.relative (machine.relative (locationText place) machine.cwdText) root =
        machine.relative (locationText place) root := by
  have habove := h.not_prefix_cwd_of_isFile hfile
  obtain ⟨folder, name, rfl⟩ := (List.eq_nil_or_concat place).resolve_left fun hnil ↦
    habove (hnil ▸ List.nil_prefix)
  rw [List.concat_eq_append] at hat hfile habove ⊢
  have hnamed := h.names_locationText hat
  have hnames := h.names hat
  obtain ⟨aside, own, hcwd, hplace, hprinted⟩ :=
    h.exists_climb hnamed h.base_cwdText h.cwd_names habove
  refine ⟨aside.length, own, name, hnamed.isName, ?_, ?_, fun root ↦ ?_⟩
  · rw [← List.append_assoc, ← hplace]
  · rw [hprinted, split_climb _ (by simp)]
    intro piece hpiece
    rw [hplace, List.append_assoc] at hnames
    exact hnames piece (List.mem_append_right _ hpiece)
  · rw [hplace] at hat
    have hway := h.names_way hcwd hat
    rw [hprinted, hway.relative h, ← hplace, hnamed.relative h]

end Lawful

end HeaderStamp.Machine
