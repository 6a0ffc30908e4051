import HeaderStamp.Collector
import HeaderStamp.Proofs.FileTree.Lawful

namespace HeaderStamp.Machine

open HeaderStamp.Path

/-- The location of the directory entry that a path names, a link at its end not followed. -/
def entryAt? (machine : Machine) (path : Text) : Option Location :=
  match machine.locateWith false path with
  | .ok (.present place _) => some place
  | _ => none

/-- A path names an entry of a directory: its last step stands where the other ones lead. -/
structure Names (machine : Machine) (path : Text) (folder : Location) (name : Text) : Prop where
  isName : IsName name
  entry : ∃ inside node, machine.tree.at? folder = some (.folder inside) ∧
    inside.find? name = some node
  route : ∃ front, steps path = front ++ [name] ∧
    ∃ links ≤ linkLimit, Leads machine.tree links (machine.origin path) front folder

def base (machine : Machine) (root : Text) : Text :=
  (machine.canonical? (machine.absolute root)).getD (machine.absolute root)

def parentText (machine : Machine) (path : Text) : Text :=
  Path.ofComponents (Path.components (machine.absolute path)).dropLast

variable {machine : Machine}

theorem isAbsolute_base (machine : Machine) (root : Text) :
    isAbsolute (machine.base root) = true := by
  rw [base]
  cases hroot : machine.canonical? (machine.absolute root) with
  | none => exact isAbsolute_absolute machine root
  | some place =>
    rw [canonical?] at hroot
    split at hroot
    · cases hroot
      rfl
    · cases hroot

theorem isFile_iff {path : Text} :
    machine.isFile path = true ↔
      ∃ place bytes, machine.locate path = .ok (.present place (.file bytes)) := by
  rw [isFile, node?]
  constructor
  · intro h
    split at h
    · rename_i bytes hnode
      split at hnode
      · rename_i place node hlocate
        cases hnode
        exact ⟨place, bytes, hlocate⟩
      · cases hnode
    · cases h
  · rintro ⟨place, bytes, hlocate⟩
    rw [hlocate]

theorem isName_of_mem_steps {path step : Text} (h : step ∈ steps path) (hdot : step ≠ ['.'])
    (hparent : step ≠ ['.', '.']) : IsName step := by
  have hpiece : step ∈ (Text.split '/' path).filter (· ≠ []) := by
    rw [steps] at h
    split at h
    · exact (List.mem_append.mp h).resolve_right fun hend ↦ hdot (List.mem_singleton.mp hend)
    · exact h
  obtain ⟨hmem, hne⟩ := List.mem_filter.mp hpiece
  exact ⟨Text.notMem_of_mem_split hmem, by simpa using hne, hdot, hparent⟩

theorem Lawful.exists_names_of_isFile (h : machine.Lawful) {path : Text}
    (hfile : machine.isFile path = true) : ∃ folder name, machine.Names path folder name := by
  obtain ⟨place, bytes, hlocate⟩ := isFile_iff.mp hfile
  obtain ⟨-, hat, links, hlinks, hleads⟩ := locate_eq_present_iff.mp hlocate
  have hne : steps path ≠ [] := by
    intro hnil
    obtain ⟨inside, horigin⟩ := h.exists_origin path
    rw [hnil] at hleads
    cases hleads with
    | arrive _ =>
      rw [horigin] at hat
      cases hat
  obtain ⟨front, name, hsteps⟩ := (List.eq_nil_or_concat _).resolve_left hne
  rw [List.concat_eq_append] at hsteps
  have hend : ¬ EndsInDots (steps path) := by
    intro hdots
    obtain ⟨inside, hinside⟩ := exists_folder_of_follow hdots
      (follow_eq_present_iff.mpr ⟨hat, links, hlinks, hleads⟩)
    cases hinside
  rw [EndsInDots, hsteps, List.getLast?_concat, Option.some.injEq, Option.some.injEq,
    not_or] at hend
  rw [hsteps] at hleads
  obtain ⟨first, second, folder, rfl, hfront, hlast⟩ := hleads.split
  have hmem : name ∈ steps path := by
    rw [hsteps]
    exact List.mem_append_right front (List.mem_singleton_self name)
  have hname : IsName name := isName_of_mem_steps hmem hend.1 hend.2
  refine ⟨folder, name, hname, ?_, front, hsteps, first, by omega, hfront⟩
  cases hlast with
  | stay _ _ => exact absurd rfl hend.1
  | climb _ _ => exact absurd rfl hend.2
  | enter hfolder _ _ hfind _ _ => exact ⟨_, _, hfolder, hfind⟩
  | follow hfolder _ _ hfind _ _ => exact ⟨_, _, hfolder, hfind⟩

namespace Names

variable {path : Text} {folder : Location} {name : Text}

theorem path_ne_nil (h : machine.Names path folder name) : path ≠ [] := by
  obtain ⟨front, hsteps, -⟩ := h.route
  rintro rfl
  exact List.append_ne_nil_of_right_ne_nil front (List.cons_ne_nil name []) hsteps.symm

theorem entryAt? (h : machine.Names path folder name) :
    machine.entryAt? path = some (folder ++ [name]) := by
  obtain ⟨inside, node, hfolder, hfind⟩ := h.entry
  obtain ⟨front, hsteps, links, hlinks, hleads⟩ := h.route
  obtain ⟨-, -, hdot, hparent⟩ := h.isName
  obtain ⟨left, hlimit⟩ := Nat.exists_eq_add_of_le' hlinks
  have hadvance : advance machine.tree false folder [name] =
      .arrived (.present (folder ++ [name]) node) := by
    have hat := Folder.at?_concat hfolder name
    rw [hfind] at hat
    cases node with
    | link target => simp [advance, hfolder, hdot, hparent, hfind]
    | file bytes => simp [advance, hfolder, hdot, hparent, hfind, hat]
    | folder lower => simp [advance, hfolder, hdot, hparent, hfind, hat]
  have hlocate : machine.locateWith false path = .ok (.present (folder ++ [name]) node) := by
    rw [locateWith, if_neg h.path_ne_nil, hlimit, hsteps]
    refine (hleads.follow_append (.inl (List.cons_ne_nil name [])) left).trans ?_
    rw [follow.eq_def]
    dsimp only
    rw [hadvance]
  rw [Machine.entryAt?, hlocate]

theorem locate (h : machine.Names path folder name) {node : Node}
    (hat : machine.tree.at? (folder ++ [name]) = some node)
    (hlink : ∀ target, node ≠ .link target) :
    machine.locate path = .ok (.present (folder ++ [name]) node) := by
  obtain ⟨inside, found, hfolder, -⟩ := h.entry
  obtain ⟨front, hsteps, links, hlinks, hleads⟩ := h.route
  have hfind := hat
  rw [Folder.at?_concat hfolder] at hfind
  refine locate_eq_present_iff.mpr ⟨h.path_ne_nil, hat, links, hlinks, ?_⟩
  rw [hsteps]
  exact hleads.append
    (.enter hfolder h.isName.2.2.1 h.isName.2.2.2 hfind hlink (.arrive hat))

theorem getLast?_split (h : machine.Names path folder name) :
    (Text.split '/' path).getLast? = some name := by
  obtain ⟨front, hsteps, -⟩ := h.route
  have hslash : path.getLast? ≠ some '/' := by
    intro hslash
    rw [steps] at hsteps
    rw [if_pos hslash] at hsteps
    exact h.isName.2.2.1 (List.singleton_inj.mp (List.append_inj' hsteps rfl).2).symm
  have hlast := Text.getLast_split_eq_nil_iff '/' path
  rw [or_iff_right h.path_ne_nil, iff_false_right hslash] at hlast
  rw [steps] at hsteps
  rw [if_neg hslash, ← List.dropLast_append_getLast (Text.split_ne_nil '/' path),
    List.filter_append, List.filter_cons_of_pos (by simpa using hlast), List.filter_nil] at hsteps
  rw [List.getLast?_eq_some_getLast (Text.split_ne_nil '/' path),
    List.singleton_inj.mp (List.append_inj' hsteps rfl).2]

theorem exists_stepsOf (h : machine.Names path folder name) :
    ∃ front, stepsOf path = front ++ [.name name] ∧ ∃ links ≤ linkLimit,
      Leads machine.tree links (machine.origin path) (front.map Component.text) folder := by
  obtain ⟨front, hsteps, links, hlinks, hleads⟩ := h.route
  have htexts := filter_steps path
  rw [hsteps, List.filter_append, List.filter_cons_of_pos (by simpa using h.isName.2.2.1),
    List.filter_nil] at htexts
  obtain ⟨upper, last, hstepsOf, hupper, hlast⟩ := List.map_eq_append_iff.mp htexts.symm
  obtain ⟨step, rfl, htext⟩ := List.map_eq_singleton_iff.mp hlast
  have hmem : step ∈ stepsOf path := by
    rw [hstepsOf]
    exact List.mem_append_right upper (List.mem_singleton_self step)
  have hstep : IsStep step := isStep_of_mem_stepsOf hmem
  have hname : step = .name name := by
    have hpiece := hstep.ofPiece?_text
    rw [htext, h.isName.ofPiece?] at hpiece
    exact (Option.some.inj hpiece).symm
  exact ⟨upper, hname ▸ hstepsOf, links, hlinks, hupper ▸ hleads.drop_dots⟩

theorem fileName?_eq (h : machine.Names path folder name) : fileName? path = some name := by
  obtain ⟨front, hfront, -⟩ := h.exists_stepsOf
  rw [fileName?_eq_some_iff, hfront, List.getLast?_concat]

end Names

namespace Lawful

variable {path : Text}

theorem leads_origin (h : machine.Lawful) (path : Text) :
    Leads machine.tree 0 [] (machine.origin path) (machine.origin path) := by
  obtain ⟨inside, horigin⟩ := h.exists_origin path
  exact h.tree.leads horigin fun _ ↦ Node.noConfusion

theorem fileName?_absolute (h : machine.Lawful) {name : Text} (hname : fileName? path = some name) :
    fileName? (machine.absolute path) = some name := by
  rw [fileName?_eq_some_iff] at hname ⊢
  rw [h.stepsOf_absolute, List.getLast?_append, hname]
  rfl

theorem locate_absolute (h : machine.Lawful) {place : Location} {inside : Folder}
    (hlocate : machine.locate path = .ok (.present place (.folder inside))) :
    machine.locate (machine.absolute path) = .ok (.present place (.folder inside)) := by
  obtain ⟨-, hat, links, hlinks, hleads⟩ := locate_eq_present_iff.mp hlocate
  have habsolute := isAbsolute_absolute machine path
  refine locate_eq_present_iff.mpr ⟨?_, hat, links, hlinks, ?_⟩
  · intro hnil
    rw [hnil] at habsolute
    cases habsolute
  · refine Leads.of_texts ?_ hat
    rw [h.stepsOf_absolute, List.map_append, map_text_names, origin, if_pos habsolute,
      ← Nat.zero_add links]
    exact (h.leads_origin path).append hleads.texts

end Lawful

theorem canonical?_eq {steps : List Component} (hsteps : ∀ step ∈ steps, IsStep step)
    {links : Nat} (hlinks : links ≤ linkLimit) {folder : Location} {inside : Folder}
    (hleads : Leads machine.tree links [] (steps.map Component.text) folder)
    (hfolder : machine.tree.at? folder = some (.folder inside)) :
    machine.canonical? ('/' :: Text.join ['/'] (steps.map Component.text)) =
      some (locationText folder) := by
  have hlocate : machine.locate ('/' :: Text.join ['/'] (steps.map Component.text)) =
      .ok (.present folder (.folder inside)) := by
    refine locate_eq_present_iff.mpr ⟨List.cons_ne_nil _ _, hfolder, links, hlinks, ?_⟩
    refine Leads.of_texts ?_ hfolder
    rw [stepsOf_cons_slash, stepsOf_join_text hsteps]
    exact hleads
  rw [canonical?, hlocate]

theorem append_locationText {folder : Location} {name : Text}
    (hnames : ∀ name ∈ folder, IsName name) (hname : IsName name) :
    Path.append (locationText folder) name = locationText (folder ++ [name]) := by
  rw [Path.append, hname.isAbsolute_eq_false, if_neg Bool.false_ne_true]
  by_cases hne : folder = []
  · subst hne
    rw [if_pos (.inr rfl)]
    simp [locationText, Text.join]
  · rw [if_neg, locationText, locationText, Text.join_concat _ hne]
    · rfl
    · exact not_or.mpr ⟨List.cons_ne_nil _ _, getLast?_locationText_ne hne hnames⟩

/-- A path is printed by what its directory is resolved to, with its last name behind. -/
theorem relative_eq_of_parent {path name parent : Text}
    (hname : fileName? (machine.absolute path) = some name)
    (hparent : machine.canonical? (machine.parentText path) = some parent) (root : Text) :
    machine.relative path root =
      slash (relativeTo (Path.append parent name) (machine.base root)) := by
  rw [parentText] at hparent
  rw [Machine.relative, hname]
  dsimp only
  rw [hparent]
  rfl

namespace Names

variable {path : Text} {folder : Location} {name : Text}

theorem exists_components_absolute (h : machine.Names path folder name)
    (hlawful : machine.Lawful) :
    ∃ front, components (machine.absolute path) = .root :: front ++ [.name name] ∧
      (∀ step ∈ front, IsStep step) ∧
      ∃ links ≤ linkLimit, Leads machine.tree links [] (front.map Component.text) folder := by
  obtain ⟨front, hfront, links, hlinks, hleads⟩ := h.exists_stepsOf
  have hsteps : stepsOf (machine.absolute path) =
      (machine.origin path).map Component.name ++ front ++ [.name name] := by
    rw [hlawful.stepsOf_absolute, hfront, List.append_assoc]
  refine ⟨(machine.origin path).map Component.name ++ front, ?_, fun step hstep ↦ ?_, links,
    hlinks, ?_⟩
  · rw [components_of_isAbsolute (isAbsolute_absolute machine path), hsteps, List.cons_append]
  · have hmem : step ∈ stepsOf (machine.absolute path) := by
      rw [hsteps]
      exact List.mem_append_left _ hstep
    exact isStep_of_mem_stepsOf hmem
  · rw [List.map_append, map_text_names, ← Nat.zero_add links]
    exact (hlawful.leads_origin path).append hleads

theorem canonical?_parentText (h : machine.Names path folder name) (hlawful : machine.Lawful) :
    machine.canonical? (machine.parentText path) = some (locationText folder) := by
  obtain ⟨inside, node, hfolder, -⟩ := h.entry
  obtain ⟨front, hcomponents, hsteps, links, hlinks, hleads⟩ :=
    h.exists_components_absolute hlawful
  rw [parentText, hcomponents, List.dropLast_concat, ofComponents]
  exact canonical?_eq hsteps hlinks hleads hfolder

/-- A path is printed by the entry that it names. -/
theorem relative (h : machine.Names path folder name) (hlawful : machine.Lawful) (root : Text) :
    machine.relative path root =
      Text.join ['/'] ((routeTo (stepsOf (machine.base root)) (folder ++ [name])).map
        Component.text) := by
  obtain ⟨inside, node, hfolder, -⟩ := h.entry
  have hnames := hlawful.names hfolder
  rw [relative_eq_of_parent (hlawful.fileName?_absolute h.fileName?_eq)
    (h.canonical?_parentText hlawful),
    append_locationText hnames h.isName]
  refine slash_relativeTo_locationText ?_ (isAbsolute_base machine root)
  exact List.forall_mem_append.mpr ⟨hnames, List.forall_mem_singleton.mpr h.isName⟩

end Names

theorem origin_eq_of_components_eq {path other : Text}
    (h : components other = components path) : machine.origin other = machine.origin path := by
  simp only [origin, isAbsolute_iff_root_mem, h]

/-- A path names the same entry however its slashes and dots are written. -/
theorem Names.unique {path other : Text} {folder lower : Location} {name last : Text}
    (h : machine.Names path folder name) (hother : machine.Names other lower last)
    (hsame : components other = components path) : lower = folder ∧ last = name := by
  obtain ⟨inside, node, hfolder, -⟩ := h.entry
  obtain ⟨outer, another, hlower, -⟩ := hother.entry
  obtain ⟨front, hfront, links, -, hleads⟩ := h.exists_stepsOf
  obtain ⟨way, hway, more, -, hmore⟩ := hother.exists_stepsOf
  have hsteps : way ++ [.name last] = front ++ [.name name] := by
    rw [← hway, ← hfront, ← filter_components, ← filter_components path, hsame]
  obtain ⟨rfl, hlast⟩ := List.append_inj' hsteps rfl
  rw [origin_eq_of_components_eq hsame] at hmore
  exact ⟨hmore.unique hlower hleads hfolder, Component.name.inj (List.singleton_inj.mp hlast)⟩

namespace Lawful

variable {path other : Text}

theorem relative_eq_iff (h : machine.Lawful) (hpath : machine.isFile path = true)
    (hother : machine.isFile other = true) (root : Text) :
    machine.relative path root = machine.relative other root ↔
      machine.entryAt? path = machine.entryAt? other := by
  have hsteps : ∀ {path folder name}, machine.Names path folder name →
      ∀ step ∈ routeTo (stepsOf (machine.base root)) (folder ++ [name]), IsStep step := by
    intro path folder name hnames step
    obtain ⟨inside, node, hfolder, -⟩ := hnames.entry
    refine isStep_of_mem_routeTo ?_ (here_notMem_stepsOf _)
    exact List.forall_mem_append.mpr
      ⟨h.names hfolder, List.forall_mem_singleton.mpr hnames.isName⟩
  obtain ⟨folder, name, hfirst⟩ := h.exists_names_of_isFile hpath
  obtain ⟨lower, last, hsecond⟩ := h.exists_names_of_isFile hother
  rw [hfirst.relative h, hsecond.relative h, hfirst.entryAt?, hsecond.entryAt?, Option.some.injEq]
  constructor
  · intro hprinted
    exact routeTo_injective (here_notMem_stepsOf _)
      (join_text_inj (hsteps hfirst) (hsteps hsecond) hprinted)
  · intro hentry
    rw [hentry]

theorem entryAt?_eq_of_components_eq (h : machine.Lawful) (hpath : machine.isFile path = true)
    (hother : machine.isFile other = true) (hsame : components other = components path) :
    machine.entryAt? other = machine.entryAt? path := by
  obtain ⟨folder, name, hfirst⟩ := h.exists_names_of_isFile hpath
  obtain ⟨lower, last, hsecond⟩ := h.exists_names_of_isFile hother
  obtain ⟨rfl, rfl⟩ := hfirst.unique hsecond hsame
  rw [hfirst.entryAt?, hsecond.entryAt?]

end Lawful

end HeaderStamp.Machine
