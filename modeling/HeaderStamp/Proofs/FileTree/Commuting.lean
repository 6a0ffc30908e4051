import HeaderStamp.Proofs.FileTree.Tree

namespace HeaderStamp.Folder

theorem put_put (name : Text) (first second : Node) (folder : Folder) :
    (folder.put name first).put name second = folder.put name second := by
  induction folder using entryInduction with
  | empty => rw [put, put_cons, if_pos rfl, put]
  | cons n node rest ih =>
    rw [put_cons, put_cons]
    by_cases hn : n = name
    · rw [if_pos hn, if_pos hn, put_cons, if_pos rfl]
    · rw [if_neg hn, if_neg hn, put_cons, if_neg hn, ih]

theorem put_comm {m n : Text} (hne : m ≠ n) (a b : Node) {folder : Folder}
    (hm : (folder.find? m).isSome) (hn : (folder.find? n).isSome) :
    (folder.put m a).put n b = (folder.put n b).put m a := by
  induction folder using entryInduction with
  | empty => cases hm
  | cons name node rest ih =>
    rw [put_cons, put_cons]
    rw [find?_cons] at hm hn
    by_cases hfirst : name = m
    · have hsecond : name ≠ n := fun h ↦ hne (hfirst.symm.trans h)
      rw [if_pos hfirst, if_neg hsecond, put_cons, put_cons, if_neg hne, if_pos hfirst]
    · rw [if_neg hfirst] at hm ⊢
      by_cases hsecond : name = n
      · rw [if_pos hsecond, put_cons, put_cons, if_pos hsecond, if_neg (Ne.symm hne)]
      · rw [if_neg hsecond] at hn ⊢
        rw [put_cons, put_cons, if_neg hsecond, if_neg hfirst, ih hm hn]

theorem putAt_cons_of_folder {root inside : Folder} {name : Text}
    (h : root.find? name = some (.folder inside)) (node : Node) {below : Location}
    (hne : below ≠ []) :
    putAt node (name :: below) root = root.put name (.folder (putAt node below inside)) := by
  obtain ⟨next, below, rfl⟩ := List.exists_cons_of_ne_nil hne
  rw [putAt, h]

theorem putAt_cons_of_no_folder {root : Folder} {name : Text}
    (h : ∀ inside, root.find? name ≠ some (.folder inside)) (node : Node) {below : Location}
    (hne : below ≠ []) : putAt node (name :: below) root = root := by
  obtain ⟨next, below, rfl⟩ := List.exists_cons_of_ne_nil hne
  rw [putAt]
  split
  · exact absurd ‹_› (h _)
  · rfl

theorem putAt_putAt (first second : Node) (location : Location) (root : Folder) :
    putAt second location (putAt first location root) = putAt second location root := by
  induction location generalizing root with
  | nil => rfl
  | cons name below ih =>
    by_cases hne : below = []
    · subst hne
      exact put_put name first second root
    · by_cases hfolder : ∃ inside, root.find? name = some (.folder inside)
      · obtain ⟨inside, hinside⟩ := hfolder
        have hput : (root.put name (.folder (putAt first below inside))).find? name =
            some (.folder (putAt first below inside)) := by
          rw [find?_put, if_pos rfl]
        rw [putAt_cons_of_folder hinside _ hne, putAt_cons_of_folder hput _ hne,
          putAt_cons_of_folder hinside _ hne, put_put, ih]
      · rw [putAt_cons_of_no_folder (not_exists.mp hfolder) _ hne]

theorem exists_putAt_eq_put {root : Folder} {name : Text} {below : Location} {old : Bytes}
    (h : root.at? (name :: below) = some (.file old)) (bytes : Bytes) :
    ∃ node, ∀ tree : Folder, tree.find? name = root.find? name →
      putAt (.file bytes) (name :: below) tree = tree.put name node := by
  rcases find?_of_at?_cons h with ⟨rfl, -⟩ | ⟨hne, inside, hinside, -⟩
  · exact ⟨.file bytes, fun tree _ ↦ rfl⟩
  · refine ⟨.folder (putAt (.file bytes) below inside), fun tree htree ↦ ?_⟩
    exact putAt_cons_of_folder (htree.trans hinside) _ hne

theorem isSome_find?_of_at?_cons {root : Folder} {name : Text} {below : Location} {bytes : Bytes}
    (h : root.at? (name :: below) = some (.file bytes)) : (root.find? name).isSome := by
  rcases find?_of_at?_cons h with ⟨-, hfile⟩ | ⟨-, inside, hinside, -⟩
  · rw [hfile]
    rfl
  · rw [hinside]
    rfl

/-- Different files can be rewritten in any order. -/
theorem putAt_comm {root : Folder} {k l : Location} (hne : k ≠ l) {x y : Bytes}
    (hk : root.at? k = some (.file x)) (hl : root.at? l = some (.file y)) (a b : Bytes) :
    putAt (.file b) l (putAt (.file a) k root) = putAt (.file a) k (putAt (.file b) l root) := by
  induction k generalizing root l with
  | nil => simp at hk
  | cons m below ih =>
    cases l with
    | nil => simp at hl
    | cons n rest =>
      by_cases hmn : m = n
      · subst hmn
        rcases find?_of_at?_cons hk with ⟨rfl, hfile⟩ | ⟨hbelow, inside, hinside, hk⟩
        · rcases find?_of_at?_cons hl with ⟨rfl, -⟩ | ⟨-, inside, hinside, -⟩
          · exact absurd rfl hne
          · rw [hfile] at hinside
            cases hinside
        · rcases find?_of_at?_cons hl with ⟨rfl, hfile⟩ | ⟨hrest, same, hsame, hl⟩
          · rw [hinside] at hfile
            cases hfile
          · rw [hinside] at hsame
            cases hsame
            have hlocations : below ≠ rest := fun h ↦ hne (congrArg (m :: ·) h)
            have hput (node : Node) : (root.put m node).find? m = some node := by
              rw [find?_put, if_pos rfl]
            rw [putAt_cons_of_folder hinside _ hbelow, putAt_cons_of_folder hinside _ hrest,
              putAt_cons_of_folder (hput _) _ hrest, putAt_cons_of_folder (hput _) _ hbelow,
              put_put, put_put, ih hlocations hk hl]
      · obtain ⟨first, hfirst⟩ := exists_putAt_eq_put hk a
        obtain ⟨second, hsecond⟩ := exists_putAt_eq_put hl b
        have hm : (root.put n second).find? m = root.find? m := by
          rw [find?_put, if_neg (Ne.symm hmn)]
        have hn : (root.put m first).find? n = root.find? n := by
          rw [find?_put, if_neg hmn]
        rw [hfirst root rfl, hsecond root rfl, hsecond _ hn, hfirst _ hm]
        exact put_comm hmn _ _ (isSome_find?_of_at?_cons hk) (isSome_find?_of_at?_cons hl)

end HeaderStamp.Folder
