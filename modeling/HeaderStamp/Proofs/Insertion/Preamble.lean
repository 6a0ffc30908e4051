import HeaderStamp.Proofs.Text.Lines
import Mathlib.Data.List.TakeWhile

namespace HeaderStamp.Inserter

theorem leading_append {test : Text → Bool} {run rest : List Text} (h : ∀ line ∈ run, test line)
    (hrest : ∀ line ∈ rest.head?, ¬ test line) : leading test (run ++ rest) = run.length := by
  rw [leading, List.takeWhile_append_of_pos h]
  cases rest with
  | nil => simp
  | cons line rest => simp [hrest line rfl]

theorem exists_leading (test : Text → Bool) (lines : List Text) :
    ∃ run rest, lines = run ++ rest ∧ (∀ line ∈ run, test line) ∧
      ∀ line ∈ rest.head?, ¬ test line := by
  refine ⟨lines.takeWhile test, lines.dropWhile test, List.takeWhile_append_dropWhile.symm, ?_, ?_⟩
  · exact fun line h ↦ List.mem_takeWhile_imp h
  · intro line h
    have hd := List.head?_dropWhile_not test lines
    rw [Option.mem_def.mp h] at hd
    simpa using hd

/-- Lines cut where the insertion index sees them: the directives, the older directive, the blank
lines, and all that is below. Each run is as long as it can be. -/
structure Parted (inserter : Inserter) (directives older blanks below : List Text) : Prop where
  directives_all : ∀ line ∈ directives, startsWith inserter.directive line
  directives_end :
    ∀ line ∈ (older ++ blanks ++ below).head?, ¬ startsWith inserter.directive line
  older_length : older.length ≤ 1
  older_all : ∀ line ∈ older, startsWith inserter.altDirective line
  older_end :
    older = [] → ∀ line ∈ (blanks ++ below).head?, ¬ startsWith inserter.altDirective line
  blanks_all : ∀ line ∈ blanks, Text.isBlank line
  blanks_end : ∀ line ∈ below.head?, ¬ Text.isBlank line

variable {inserter : Inserter} {directives older blanks below : List Text}

theorem Parted.index_eq (h : Parted inserter directives older blanks below) :
    inserter.index (directives ++ older ++ blanks ++ below) =
      (directives ++ older ++ blanks).length := by
  have hd : leading (startsWith inserter.directive) (directives ++ (older ++ (blanks ++ below))) =
      directives.length := leading_append h.directives_all (by simpa using h.directives_end)
  have ho : leading (startsWith inserter.altDirective) ((older ++ (blanks ++ below)).take 1) =
      older.length := by
    match older, h.older_length, h.older_all, h.older_end with
    | [], _, _, hend =>
      have hend := hend rfl
      cases hb : blanks ++ below with
      | nil => rfl
      | cons line rest =>
        rw [hb] at hend
        simp [leading, hend line rfl]
    | [line], _, hline, _ => simp [leading, hline]
  have hb : leading Text.isBlank (blanks ++ below) = blanks.length :=
    leading_append h.blanks_all h.blanks_end
  simp only [index, List.append_assoc, hd, List.drop_left, ho]
  rw [← List.append_assoc, ← List.length_append, List.drop_left, hb]
  simp only [List.length_append, Nat.add_assoc]

theorem Parted.drop_index (h : Parted inserter directives older blanks below) :
    (directives ++ older ++ blanks ++ below).drop
      (inserter.index (directives ++ older ++ blanks ++ below)) = below := by
  rw [h.index_eq]
  exact List.drop_left

theorem Parted.take_index (h : Parted inserter directives older blanks below) :
    (directives ++ older ++ blanks ++ below).take
      (inserter.index (directives ++ older ++ blanks ++ below)) =
        directives ++ older ++ blanks := by
  rw [h.index_eq]
  exact List.take_left

theorem exists_parted (inserter : Inserter) (lines : List Text) :
    ∃ directives older blanks below, lines = directives ++ older ++ blanks ++ below ∧
      Parted inserter directives older blanks below := by
  obtain ⟨directives, rest, rfl, hd, hdend⟩ :=
    exists_leading (startsWith inserter.directive) lines
  obtain ⟨older, rest', rfl, hlen, ho, hoend⟩ :
      ∃ older rest', rest = older ++ rest' ∧ older.length ≤ 1 ∧
        (∀ line ∈ older, startsWith inserter.altDirective line) ∧
        (older = [] → ∀ line ∈ rest'.head?, ¬ startsWith inserter.altDirective line) := by
    cases rest with
    | nil => exact ⟨[], [], rfl, by simp, by simp, by simp⟩
    | cons line rest =>
      by_cases h : startsWith inserter.altDirective line
      · exact ⟨[line], rest, rfl, by simp, by simpa using h, by simp⟩
      · exact ⟨[], line :: rest, rfl, by simp, by simp, by simpa using h⟩
  obtain ⟨blanks, below, rfl, hb, hbend⟩ := exists_leading Text.isBlank rest'
  exact ⟨directives, older, blanks, below, by simp,
    hd, by simpa using hdend, hlen, ho, hoend, hb, hbend⟩

theorem Parted.prepend (h : Parted inserter directives older blanks below) {more : List Text}
    (hmore : ∀ line ∈ more, startsWith inserter.directive line) :
    Parted inserter (more ++ directives) older blanks below where
  directives_all line hl := (List.mem_append.mp hl).elim (hmore line) (h.directives_all line)
  directives_end := h.directives_end
  older_length := h.older_length
  older_all := h.older_all
  older_end := h.older_end
  blanks_all := h.blanks_all
  blanks_end := h.blanks_end

theorem index_append {more : List Text}
    (hmore : ∀ line ∈ more, startsWith inserter.directive line) (lines : List Text) :
    inserter.index (more ++ lines) = more.length + inserter.index lines := by
  obtain ⟨directives, older, blanks, below, rfl, h⟩ := exists_parted inserter lines
  have hindex := (h.prepend hmore).index_eq
  rw [h.index_eq]
  simpa only [List.append_assoc, List.length_append] using hindex

theorem index_append_of_lt {lines : List Text} (h : inserter.index lines < lines.length)
    (more : List Text) : inserter.index (lines ++ more) = inserter.index lines := by
  obtain ⟨directives, older, blanks, below, rfl, hparted⟩ := exists_parted inserter lines
  rw [hparted.index_eq] at h
  cases below with
  | nil => simp at h
  | cons line below =>
    have hmore : Parted inserter directives older blanks (line :: (below ++ more)) :=
      ⟨hparted.directives_all, by simpa using hparted.directives_end, hparted.older_length,
        hparted.older_all, by simpa using hparted.older_end, hparted.blanks_all,
        hparted.blanks_end⟩
    have hindex := hmore.index_eq
    rw [hparted.index_eq, ← hindex]
    simp only [List.append_assoc, List.cons_append]

end HeaderStamp.Inserter
