import HeaderStamp.Proofs.FileTree.Entry
import Mathlib.Data.List.Nodup

namespace HeaderStamp

namespace Folder

def walked : Folder → List Location
  | .empty => []
  | .file name _ rest => [name] :: rest.walked
  | .link _ _ rest => rest.walked
  | .folder name inside rest =>
    (if skippedFolders.contains name then [] else inside.walked.map (name :: ·)) ++ rest.walked

theorem filesBelow_eq (folder : Folder) (base : Text) :
    folder.filesBelow base = folder.walked.map (·.foldl Path.append base) := by
  induction folder generalizing base with
  | empty => rfl
  | file name bytes rest ih =>
    rw [filesBelow, walked, List.map_cons, ih]
    rfl
  | link name target rest ih => exact ih base
  | folder name inside rest ihInside ih =>
    rw [filesBelow, walked, List.map_append, ih]
    congr 1
    split
    · rfl
    · rw [ihInside, List.map_map]
      rfl

theorem at?_cons_cons_of_ne {name n : Text} (hne : name ≠ n) (node : Node) (rest : Folder)
    (lower : Location) : (cons name node rest).at? (n :: lower) = rest.at? (n :: lower) := by
  rw [at?_cons, at?_cons, find?_cons, if_neg hne]

theorem at?_cons_cons_self (name : Text) (node : Node) (rest : Folder) (lower : Location) :
    (cons name node rest).at? (name :: lower) = node.below? lower := by
  rw [at?_cons, find?_cons, if_pos rfl, Option.bind_some]

theorem ne_nil_of_at?_eq_file {folder : Folder} {below : Location} {bytes : Bytes}
    (hat : folder.at? below = some (.file bytes)) : below ≠ [] := by
  intro hnil
  rw [hnil, at?_nil] at hat
  cases hat

theorem at?_cons_of_rest {name : Text} (node : Node) {rest : Folder} {below : Location}
    {bytes : Bytes} (hname : rest.find? name = none)
    (hat : rest.at? below = some (.file bytes)) :
    (cons name node rest).at? below = some (.file bytes) := by
  obtain ⟨n, lower, rfl⟩ := List.exists_cons_of_ne_nil (ne_nil_of_at?_eq_file hat)
  rw [at?_cons_cons_of_ne, hat]
  intro heq
  rw [at?_cons, ← heq, hname] at hat
  cases hat

theorem Lawful.at?_of_mem_walked {folder : Folder} (h : folder.Lawful) {below : Location}
    (hmem : below ∈ folder.walked) : ∃ bytes, folder.at? below = some (.file bytes) := by
  induction folder generalizing below with
  | empty => cases hmem
  | file name bytes rest ih =>
    obtain ⟨-, hname, hrest⟩ := h
    rcases List.mem_cons.mp hmem with rfl | hmem
    · exact ⟨bytes, by rw [at?_cons, find?, if_pos rfl]; rfl⟩
    · obtain ⟨more, hat⟩ := ih hrest hmem
      exact ⟨more, at?_cons_of_rest (.file bytes) hname hat⟩
  | link name target rest ih =>
    obtain ⟨-, hname, hrest⟩ := h
    obtain ⟨more, hat⟩ := ih hrest hmem
    exact ⟨more, at?_cons_of_rest (.link target) hname hat⟩
  | folder name inside rest ihInside ih =>
    obtain ⟨-, hname, hinside, hrest⟩ := h
    rw [walked, List.mem_append] at hmem
    rcases hmem with hmem | hmem
    · split at hmem
      · cases hmem
      · obtain ⟨lower, hlower, rfl⟩ := List.mem_map.mp hmem
        obtain ⟨more, hat⟩ := ihInside hinside hlower
        exact ⟨more, by rw [at?_cons, find?, if_pos rfl]; exact hat⟩
    · obtain ⟨more, hat⟩ := ih hrest hmem
      exact ⟨more, at?_cons_of_rest (.folder inside) hname hat⟩

theorem Lawful.cons_notMem_walked {folder : Folder} (h : folder.Lawful) {name : Text}
    (hname : folder.find? name = none) (lower : Location) : name :: lower ∉ folder.walked := by
  intro hmem
  obtain ⟨bytes, hat⟩ := h.at?_of_mem_walked hmem
  rw [at?_cons, hname] at hat
  cases hat

theorem Lawful.nodup_walked {folder : Folder} (h : folder.Lawful) : folder.walked.Nodup := by
  induction folder with
  | empty => exact .nil
  | file name bytes rest ih =>
    obtain ⟨-, hname, hrest⟩ := h
    exact List.nodup_cons.mpr ⟨hrest.cons_notMem_walked hname [], ih hrest⟩
  | link name target rest ih => exact ih h.2.2
  | folder name inside rest ihInside ih =>
    obtain ⟨-, hname, hinside, hrest⟩ := h
    rw [walked, List.nodup_append]
    refine ⟨?_, ih hrest, ?_⟩
    · split
      · exact .nil
      · exact List.Nodup.map List.cons_injective (ihInside hinside)
    · rintro below hbelow other hother rfl
      split at hbelow
      · cases hbelow
      · obtain ⟨lower, -, rfl⟩ := List.mem_map.mp hbelow
        exact hrest.cons_notMem_walked hname lower hother

theorem Lawful.notMem_skipped_of_mem_walked {folder : Folder} (h : folder.Lawful)
    {below : Location} (hmem : below ∈ folder.walked) :
    ∀ name ∈ below.dropLast, name ∉ skippedFolders := by
  induction folder generalizing below with
  | empty => cases hmem
  | file name bytes rest ih =>
    rcases List.mem_cons.mp hmem with rfl | hmem
    · simp
    · exact ih h.2.2 hmem
  | link name target rest ih => exact ih h.2.2 hmem
  | folder name inside rest ihInside ih =>
    obtain ⟨-, -, hinside, hrest⟩ := h
    rw [walked, List.mem_append] at hmem
    rcases hmem with hmem | hmem
    · split at hmem
      · cases hmem
      · rename_i hentered
        obtain ⟨lower, hlower, rfl⟩ := List.mem_map.mp hmem
        obtain ⟨bytes, hat⟩ := hinside.at?_of_mem_walked hlower
        rw [List.dropLast_cons_of_ne_nil (ne_nil_of_at?_eq_file hat), List.forall_mem_cons]
        exact ⟨by simpa using hentered, ihInside hinside hlower⟩
    · exact ih hrest hmem

theorem mem_walked_of_at? {folder : Folder} {below : Location} {bytes : Bytes}
    (hat : folder.at? below = some (.file bytes))
    (hentered : ∀ name ∈ below.dropLast, name ∉ skippedFolders) : below ∈ folder.walked := by
  induction folder generalizing below with
  | empty => cases below <;> cases hat
  | file name content rest ih =>
    obtain ⟨n, lower, rfl⟩ := List.exists_cons_of_ne_nil (ne_nil_of_at?_eq_file hat)
    rw [walked, List.mem_cons]
    by_cases hname : name = n
    · subst hname
      have hlower := (at?_cons_cons_self name (.file content) rest lower).symm.trans hat
      cases lower with
      | nil => exact .inl rfl
      | cons next lower => cases hlower
    · have hrest := (at?_cons_cons_of_ne hname (.file content) rest lower).symm.trans hat
      exact .inr (ih hrest hentered)
  | link name target rest ih =>
    obtain ⟨n, lower, rfl⟩ := List.exists_cons_of_ne_nil (ne_nil_of_at?_eq_file hat)
    by_cases hname : name = n
    · subst hname
      have hlower := (at?_cons_cons_self name (.link target) rest lower).symm.trans hat
      cases lower <;> cases hlower
    · have hrest := (at?_cons_cons_of_ne hname (.link target) rest lower).symm.trans hat
      exact ih hrest hentered
  | folder name inside rest ihInside ih =>
    obtain ⟨n, lower, rfl⟩ := List.exists_cons_of_ne_nil (ne_nil_of_at?_eq_file hat)
    rw [walked, List.mem_append]
    by_cases hname : name = n
    · subst hname
      have hlower : inside.at? lower = some (.file bytes) :=
        (at?_cons_cons_self name (.folder inside) rest lower).symm.trans hat
      rw [List.dropLast_cons_of_ne_nil (ne_nil_of_at?_eq_file hlower),
        List.forall_mem_cons] at hentered
      left
      rw [if_neg (by simpa using hentered.1)]
      exact List.mem_map_of_mem (ihInside hlower hentered.2)
    · have hrest := (at?_cons_cons_of_ne hname (.folder inside) rest lower).symm.trans hat
      exact .inr (ih hrest hentered)

/-- A walk misses no file but those behind a directory that it passes by. -/
theorem Lawful.mem_walked_iff {folder : Folder} (h : folder.Lawful) {below : Location} :
    below ∈ folder.walked ↔ (∃ bytes, folder.at? below = some (.file bytes)) ∧
      ∀ name ∈ below.dropLast, name ∉ skippedFolders := by
  constructor
  · intro hmem
    exact ⟨h.at?_of_mem_walked hmem, h.notMem_skipped_of_mem_walked hmem⟩
  · rintro ⟨⟨bytes, hat⟩, hentered⟩
    exact mem_walked_of_at? hat hentered

end Folder

namespace Path

theorem exists_append_eq {base name : Text} (hbase : base ≠ []) (hname : IsName name) :
    ∃ front, append base name = front ++ '/' :: name ∧ stepsOf front = stepsOf base := by
  rw [append, hname.isAbsolute_eq_false, if_neg Bool.false_ne_true]
  split
  · rename_i hend
    obtain ⟨front, rfl⟩ := List.getLast?_eq_some_iff.mp (hend.resolve_left hbase)
    refine ⟨front, List.append_assoc _ _ _, ?_⟩
    rw [stepsOf_append_slash, stepsOf_nil, List.append_nil]
  · exact ⟨base, rfl, rfl⟩

theorem isAbsolute_append_eq {base name : Text} (hbase : base ≠ []) (hname : IsName name) :
    isAbsolute (append base name) = isAbsolute base := by
  obtain ⟨c, rest, rfl⟩ := List.exists_cons_of_ne_nil hbase
  rw [append, hname.isAbsolute_eq_false, if_neg Bool.false_ne_true]
  split <;> rfl

end Path

namespace Machine

open HeaderStamp.Path

variable {machine : Machine} {base name : Text} {place : Location} {inside : Folder}

theorem exists_steps_append (hbase : base ≠ []) (hname : IsName name) :
    ∃ front, steps (Path.append base name) = front ++ [name] ∧
      front.filter (· ≠ ['.']) = (stepsOf base).map Component.text := by
  obtain ⟨front, happend, hfront⟩ := exists_append_eq hbase hname
  refine ⟨(Text.split '/' front).filter (· ≠ []), ?_, ?_⟩
  · have hend : (front ++ '/' :: name).getLast? ≠ some '/' := by
      intro hlast
      refine hname.1 (List.mem_of_getLast? ?_)
      rw [← hlast, List.getLast?_append_of_ne_nil _ (List.cons_ne_nil _ _),
        List.getLast?_cons_of_ne_nil hname.2.1]
    rw [happend, steps]
    rw [if_neg hend, Text.split_append_separator, Text.split_of_notMem hname.1,
      List.filter_append, List.filter_cons_of_pos (by simpa using hname.2.1), List.filter_nil]
  · rw [filter_pieces, hfront]

theorem names_append {node : Node}
    (hbase : machine.locate base = .ok (.present place (.folder inside)))
    (hname : IsName name) (hfind : inside.find? name = some node) :
    machine.Names (Path.append base name) place name := by
  obtain ⟨hne, hplace, links, hlinks, hleads⟩ := locate_eq_present_iff.mp hbase
  obtain ⟨front, hsteps, hfront⟩ := exists_steps_append hne hname
  refine ⟨hname, ⟨inside, node, hplace, hfind⟩, front, hsteps, links, hlinks, ?_⟩
  rw [origin, isAbsolute_append_eq hne hname, ← origin]
  exact Leads.add_dots (hfront ▸ hleads.texts) hplace

theorem locate_append {node : Node}
    (hbase : machine.locate base = .ok (.present place (.folder inside)))
    (hname : IsName name) (hfind : inside.find? name = some node)
    (hlink : ∀ target, node ≠ .link target) :
    machine.locate (Path.append base name) = .ok (.present (place ++ [name]) node) := by
  obtain ⟨-, hplace, -⟩ := locate_eq_present_iff.mp hbase
  refine (names_append hbase hname hfind).locate ?_ hlink
  rw [Folder.at?_concat hplace, hfind]

theorem locate_foldl_append (hlawful : machine.Lawful)
    (hbase : machine.locate base = .ok (.present place (.folder inside))) {below : Location}
    {lower : Folder} (hbelow : inside.at? below = some (.folder lower)) :
    machine.locate (below.foldl Path.append base) =
      .ok (.present (place ++ below) (.folder lower)) := by
  induction below generalizing base place inside with
  | nil =>
    rw [Folder.at?_nil] at hbelow
    cases hbelow
    rw [List.append_nil]
    exact hbase
  | cons name below ih =>
    rw [Folder.at?_cons] at hbelow
    obtain ⟨node, hfind, hnode⟩ := Option.bind_eq_some_iff.mp hbelow
    cases node with
    | file bytes => cases below <;> cases hnode
    | link target => cases below <;> cases hnode
    | folder next =>
      obtain ⟨-, hplace, -⟩ := locate_eq_present_iff.mp hbase
      have hname := ((hlawful.tree.of_at? hplace).2 : inside.Lawful).of_find? hfind |>.1
      have hnext := locate_append hbase hname hfind fun _ ↦ Node.noConfusion
      rw [List.foldl_cons, ← List.singleton_append, ← List.append_assoc]
      exact ih hnext hnode

/-- A file below a directory is found at its own place if its names are put behind a path to the
directory. -/
theorem locate_foldl_append_file {below : Location} {bytes : Bytes} (hlawful : machine.Lawful)
    (hbase : machine.locate base = .ok (.present place (.folder inside)))
    (hat : inside.at? below = some (.file bytes)) :
    machine.locate (below.foldl Path.append base) =
        .ok (.present (place ++ below) (.file bytes)) ∧
      machine.entryAt? (below.foldl Path.append base) = some (place ++ below) := by
  obtain ⟨front, name, rfl⟩ :=
    (List.eq_nil_or_concat below).resolve_left (Folder.ne_nil_of_at?_eq_file hat)
  rw [List.concat_eq_append] at hat ⊢
  obtain ⟨-, hplace, -⟩ := locate_eq_present_iff.mp hbase
  have hinside : inside.Lawful := (hlawful.tree.of_at? hplace).2
  have hname : IsName name := (hinside.of_at? hat).1 name (by simp)
  obtain ⟨lower, hlower⟩ := Folder.exists_folder_of_at?_append (List.cons_ne_nil name []) hat
  have hfolder := locate_foldl_append hlawful hbase hlower
  rw [Folder.at?_concat hlower] at hat
  rw [List.foldl_concat, ← List.append_assoc]
  have hlocate := locate_append hfolder hname hat fun _ ↦ Node.noConfusion
  exact ⟨hlocate, (names_append hfolder hname hat).entryAt?⟩

theorem entryAt?_foldl_append (hlawful : machine.Lawful)
    (hbase : machine.locate base = .ok (.present place (.folder inside))) {below : Location}
    (hbelow : below ∈ inside.walked) :
    machine.isFile (below.foldl Path.append base) = true ∧
      machine.entryAt? (below.foldl Path.append base) = some (place ++ below) := by
  obtain ⟨-, hplace, -⟩ := locate_eq_present_iff.mp hbase
  have hinside : inside.Lawful := (hlawful.tree.of_at? hplace).2
  obtain ⟨bytes, hat⟩ := hinside.at?_of_mem_walked hbelow
  obtain ⟨hlocate, hentry⟩ := locate_foldl_append_file hlawful hbase hat
  exact ⟨isFile_iff.mpr ⟨_, bytes, hlocate⟩, hentry⟩

section Walk

variable {path : Text}

theorem exists_locate_of_node? {node : Node} (h : machine.node? path = some node) :
    ∃ place, machine.locate path = .ok (.present place node) := by
  rw [node?] at h
  split at h
  · rename_i place found hlocate
    cases h
    exact ⟨place, hlocate⟩
  · cases h

theorem exists_node?_of_isFolder (h : machine.isFolder path = true) :
    ∃ inside, machine.node? path = some (.folder inside) := by
  rw [isFolder] at h
  split at h
  · rename_i inside hnode
    exact ⟨inside, hnode⟩
  · cases h

theorem walk_eq (h : machine.node? path = some (.folder inside)) :
    machine.walk path = inside.walked.map (·.foldl Path.append path) := by
  rw [walk, h, ← Folder.filesBelow_eq]

theorem map_entryAt?_walk (hlawful : machine.Lawful)
    (hpath : machine.locate path = .ok (.present place (.folder inside))) :
    (machine.walk path).map machine.entryAt? = inside.walked.map (some <| place ++ ·) := by
  have hnode : machine.node? path = some (.folder inside) := by rw [node?, hpath]
  rw [walk_eq hnode, List.map_map]
  refine List.map_congr_left fun below hbelow ↦ ?_
  exact (entryAt?_foldl_append hlawful hpath hbelow).2

theorem nodup_entryAt?_walk (hlawful : machine.Lawful)
    (hpath : machine.locate path = .ok (.present place (.folder inside))) :
    ((machine.walk path).map machine.entryAt?).Nodup := by
  obtain ⟨-, hplace, -⟩ := locate_eq_present_iff.mp hpath
  have hinside : inside.Lawful := (hlawful.tree.of_at? hplace).2
  rw [map_entryAt?_walk hlawful hpath]
  refine List.Nodup.map ?_ hinside.nodup_walked
  intro first second hsame
  exact List.append_cancel_left (Option.some.inj hsame)

/-- No file is printed twice among those that one walk finds. -/
theorem nodup_relative_walk (hlawful : machine.Lawful) (path root : Text) :
    ((machine.walk path).map fun p ↦ machine.relative p root).Nodup := by
  cases hnode : machine.node? path with
  | none =>
    rw [walk, hnode]
    exact .nil
  | some node =>
    cases node with
    | link target =>
      rw [walk, hnode]
      exact .nil
    | file bytes =>
      rw [walk, hnode]
      dsimp only
      split
      · exact List.nodup_singleton _
      · exact .nil
    | folder inside =>
      obtain ⟨place, hlocate⟩ := exists_locate_of_node? hnode
      have hentries := nodup_entryAt?_walk hlawful hlocate
      refine hentries.of_map.map_on ?_
      intro first hfirst second hsecond hprinted
      have hfile : ∀ file ∈ machine.walk path, machine.isFile file = true := by
        intro file hfile
        rw [walk_eq hnode] at hfile
        obtain ⟨below, hbelow, rfl⟩ := List.mem_map.mp hfile
        exact (entryAt?_foldl_append hlawful hlocate hbelow).1
      rw [hlawful.relative_eq_iff (hfile _ hfirst) (hfile _ hsecond)] at hprinted
      exact List.inj_on_of_nodup_map hentries hfirst hsecond hprinted

end Walk

end Machine

end HeaderStamp
