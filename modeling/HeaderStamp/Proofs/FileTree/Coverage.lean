import HeaderStamp.Proofs.FileTree.Walking

namespace HeaderStamp

theorem Folder.at?_append_of_folder {root inside : Folder} {place : Location}
    (h : root.at? place = some (.folder inside)) (below : Location) :
    root.at? (place ++ below) = inside.at? below := by
  rw [at?_append, h, Option.bind_some]
  rfl

namespace Machine

variable {machine : Machine} {path : Text} {place below : Location} {inside : Folder}

theorem ownNode?_eq_at? (h : machine.entryAt? path = some place) :
    machine.ownNode? path = machine.tree.at? place := by
  rw [entryAt?] at h
  split at h
  · rename_i found node hlocate
    cases h
    rw [ownNode?, hlocate]
    exact (at?_of_locateWith hlocate).symm
  · cases h

/-- A regular file stands below the place, and no directory in between is one that walks pass by.
Its own name and the one of the place do not count. -/
structure InReach (machine : Machine) (place below : Location) : Prop where
  file : ∃ bytes, machine.tree.at? (place ++ below) = some (.file bytes)
  entered : ∀ name ∈ below.dropLast, name ∉ skippedFolders

theorem mem_walked_iff_inReach (hlawful : machine.Lawful)
    (hplace : machine.tree.at? place = some (.folder inside)) :
    below ∈ inside.walked ↔ machine.InReach place below := by
  have hinside : inside.Lawful := (hlawful.tree.of_at? hplace).2
  rw [hinside.mem_walked_iff, ← Folder.at?_append_of_folder hplace below]
  constructor
  · rintro ⟨hfile, hentered⟩
    exact ⟨hfile, hentered⟩
  · intro h
    exact ⟨h.file, h.entered⟩

/-- A walk from a directory, which may be reached by links and have any name, goes through all that
lies below it: every regular file in reach is found once, under the path to the directory with the
names below it, and whatever is found is such a file, neither a link nor behind one. -/
theorem walk_covers (hlawful : machine.Lawful)
    (hpath : machine.locate path = .ok (.present place (.folder inside))) :
    (∀ below, machine.InReach place below →
      (machine.walk path).count (below.foldl Path.append path) = 1) ∧
    ((machine.walk path).map machine.entryAt?).Nodup ∧
    ∀ file ∈ machine.walk path, ∃ below bytes, machine.InReach place below ∧
      file = below.foldl Path.append path ∧ machine.ownNode? file = some (.file bytes) ∧
      machine.locate file = .ok (.present (place ++ below) (.file bytes)) ∧
      ∀ front back, below = front ++ back → back ≠ [] →
        ∃ lower, machine.tree.at? (place ++ front) = some (.folder lower) := by
  obtain ⟨-, hplace, -⟩ := locate_eq_present_iff.mp hpath
  have hnode : machine.node? path = some (.folder inside) := by rw [node?, hpath]
  have hentries := nodup_entryAt?_walk hlawful hpath
  refine ⟨?_, hentries, ?_⟩
  · intro below hreach
    apply List.count_eq_one_of_mem hentries.of_map
    rw [walk_eq hnode]
    exact List.mem_map_of_mem ((mem_walked_iff_inReach hlawful hplace).mpr hreach)
  · intro file hfile
    rw [walk_eq hnode] at hfile
    obtain ⟨below, hbelow, rfl⟩ := List.mem_map.mp hfile
    have hreach := (mem_walked_iff_inReach hlawful hplace).mp hbelow
    obtain ⟨bytes, hat⟩ := hreach.file
    have hinside := (Folder.at?_append_of_folder hplace below).symm.trans hat
    obtain ⟨hlocate, hentry⟩ := locate_foldl_append_file hlawful hpath hinside
    refine ⟨below, bytes, hreach, rfl, ?_, hlocate, ?_⟩
    · rw [ownNode?_eq_at? hentry, hat]
    · intro front back hparts hback
      rw [hparts, ← List.append_assoc] at hat
      exact Folder.exists_folder_of_at?_append hback hat

/-- A link called `.git` is walked through, with the files of that name that it leads to. Links
below it go round in a circle or to files that are passed by, as the directory `.hg` is. -/
theorem walk_covers_of_link :
    let inside : Folder :=
      .file ".git".toList [] (.folder ".hg".toList (.file "a.go".toList [] .empty)
        (.link "up".toList "..".toList (.folder "d".toList
          (.folder ".svn".toList (.folder "e".toList (.file "b.go".toList [] .empty) .empty)
            (.file ".hg".toList [] (.link "c.go".toList ".hg".toList .empty))) .empty)))
    let machine : Machine := ⟨.folder "p".toList inside (.link ".git".toList "p".toList .empty), []⟩
    let path := ".git".toList
    machine.Lawful ∧ machine.locate path = .ok (.present ["p".toList] (.folder inside)) ∧
      machine.walk path = [".git/.git".toList, ".git/d/.hg".toList] ∧
      machine.InReach ["p".toList] ["d".toList, ".hg".toList] ∧
      (machine.walk path).count ".git/d/.hg".toList = 1 ∧
      ∃ below bytes, machine.InReach ["p".toList] below ∧
        ".git/.git".toList = below.foldl Path.append path ∧
        machine.ownNode? ".git/.git".toList = some (.file bytes) := by
  intro inside machine path
  have hlawful : machine.Lawful := ⟨by decide, machine.tree, rfl⟩
  have hpath : machine.locate path = .ok (.present ["p".toList] (.folder inside)) := by
    decide +kernel
  have hwalk : machine.walk path = [".git/.git".toList, ".git/d/.hg".toList] := by
    decide +kernel
  have hreach : machine.InReach ["p".toList] ["d".toList, ".hg".toList] :=
    ⟨⟨[], by decide +kernel⟩, by decide⟩
  obtain ⟨hcount, -, hfound⟩ := walk_covers hlawful hpath
  obtain ⟨below, bytes, hbelow, hspelled, hown, -⟩ :=
    hfound ".git/.git".toList (by rw [hwalk]; exact List.mem_cons_self)
  exact ⟨hlawful, hpath, hwalk, hreach, hcount _ hreach, below, bytes, hbelow, hspelled, hown⟩

end Machine

end HeaderStamp
