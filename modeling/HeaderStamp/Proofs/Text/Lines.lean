import HeaderStamp.Insertion
import HeaderStamp.Proofs.Text.Pieces

namespace HeaderStamp.Text

/-- A text is a piece without line feeds, or such a piece, a line feed and a shorter text. -/
@[elab_as_elim]
theorem lineInduction {motive : Text → Prop} (last : ∀ piece, '\n' ∉ piece → motive piece)
    (line : ∀ piece rest, '\n' ∉ piece → motive rest → motive (piece ++ '\n' :: rest)) (t : Text) :
    motive t :=
  pieceInduction '\n' last line t

@[simp] theorem lines_nil : lines [] = [] := rfl

theorem lines_of_notMem {t : Text} (h : '\n' ∉ t) (hne : t ≠ []) : lines t = [t] := by
  rw [lines, split_of_notMem h, linesOfPieces, if_neg (by simpa using hne)]

theorem lines_append_cons {line : Text} (h : '\n' ∉ line) (rest : Text) :
    lines (line ++ '\n' :: rest) = dropReturn line :: lines rest := by
  obtain ⟨piece, pieces, hs⟩ := exists_split '\n' rest
  rw [lines, lines, split_append_cons h, hs, linesOfPieces]

theorem dropReturn_sublist (line : Text) : (dropReturn line).Sublist line := by
  rw [dropReturn]
  split
  · exact List.dropLast_sublist line
  · exact List.Sublist.refl line

theorem feed_notMem_of_mem_lines {t line : Text} (h : line ∈ lines t) : '\n' ∉ line := by
  induction t using lineInduction with
  | last piece hp =>
    by_cases hne : piece = []
    · simp [hne] at h
    · rw [lines_of_notMem hp hne, List.mem_singleton] at h
      exact h ▸ hp
  | line piece rest hp ih =>
    rw [lines_append_cons hp, List.mem_cons] at h
    rcases h with rfl | h
    · exact fun hm ↦ hp ((dropReturn_sublist piece).mem hm)
    · exact ih h

/-- Lines do not reach over a line feed. -/
theorem lines_append_feed (t u : Text) :
    lines (t ++ '\n' :: u) = lines (t ++ ['\n']) ++ lines u := by
  induction t using lineInduction with
  | last piece hp => rw [lines_append_cons hp, lines_append_cons hp]; simp
  | line piece rest hp ih =>
    rw [List.append_assoc, List.cons_append, lines_append_cons hp, ih, List.append_assoc,
      List.cons_append, lines_append_cons hp, List.cons_append]

theorem lines_append_feed_ne_nil (t u : Text) : lines (t ++ '\n' :: u) ≠ [] := by
  obtain ⟨piece, rest, htext, hp⟩ :=
    List.eq_append_cons_of_mem (List.mem_append_right t (List.mem_cons_self (l := u)))
  rw [htext, lines_append_cons hp]
  exact List.cons_ne_nil _ _

theorem dropReturn_append_return (line : Text) : dropReturn (line ++ ['\r']) = line := by
  simp [dropReturn]

theorem dropReturn_of_notMem {line : Text} (h : '\r' ∉ line) : dropReturn line = line :=
  if_neg fun hr ↦ h (List.mem_of_getLast? hr)

theorem dropReturn_cons_cons (a b : Char) (line : Text) :
    dropReturn (a :: b :: line) = a :: dropReturn (b :: line) := by
  simp only [dropReturn, List.getLast?_cons_cons, List.dropLast_cons_cons]
  split <;> rfl

theorem dropReturn_eq_or (line : Text) :
    line = dropReturn line ++ ['\r'] ∨ dropReturn line = line := by
  by_cases h : line.getLast? = some '\r'
  · obtain ⟨front, rfl⟩ := List.getLast?_eq_some_iff.mp h
    exact .inl (by rw [dropReturn_append_return])
  · exact .inr (if_neg h)

theorem exists_lines_append {stem : Text} (h : '\n' ∉ stem) (hne : stem ≠ [])
    (hr : stem.getLast? ≠ some '\r') (t : Text) :
    ∃ line more, lines (stem ++ t) = line :: more ∧ stem <+: line := by
  by_cases ht : '\n' ∈ t
  · obtain ⟨piece, rest, rfl, hp⟩ := List.eq_append_cons_of_mem ht
    refine ⟨dropReturn (stem ++ piece), lines rest, ?_, ?_⟩
    · rw [← List.append_assoc, lines_append_cons (by simp [h, hp])]
    · rcases dropReturn_eq_or (stem ++ piece) with he | he
      · have hprefix := List.prefix_append stem piece
        rw [he, List.prefix_concat_iff] at hprefix
        rcases hprefix with hs | hs
        · exact absurd (by rw [hs]; simp) hr
        · exact hs
      · rw [he]; exact List.prefix_append stem piece
  · exact ⟨stem ++ t, [], lines_of_notMem (by simp [h, ht]) (by simp [hne]),
      List.prefix_append stem t⟩

def bareFeeds : Text → Text
  | [] => []
  | '\r' :: '\n' :: rest => '\n' :: bareFeeds rest
  | c :: rest => c :: bareFeeds rest

/-- The text with bare line feeds, the last line being terminated like all others. -/
def normalized (t : Text) : Text :=
  bareFeeds t ++ if t = [] ∨ t.getLast? = some '\n' then [] else ['\n']

theorem bareFeeds_of_notMem {t : Text} (h : '\n' ∉ t) : bareFeeds t = t := by
  induction t with
  | nil => rfl
  | cons c t ih =>
    rw [List.mem_cons, not_or] at h
    rw [bareFeeds, ih h.2]
    rintro rest rfl rfl
    simp at h

theorem bareFeeds_append_cons {line : Text} (h : '\n' ∉ line) (rest : Text) :
    bareFeeds (line ++ '\n' :: rest) = dropReturn line ++ '\n' :: bareFeeds rest := by
  induction line with
  | nil => rfl
  | cons a line ih =>
    rw [List.mem_cons, not_or] at h
    cases line with
    | nil =>
      by_cases ha : a = '\r'
      · subst ha; rfl
      · simp [bareFeeds, dropReturn, ha]
    | cons b line =>
      rw [dropReturn_cons_cons, List.cons_append, bareFeeds, ih h.2, List.cons_append]
      rintro _ rfl hb
      simp_all

theorem normalized_append_cons {line : Text} (h : '\n' ∉ line) (rest : Text) :
    normalized (line ++ '\n' :: rest) = dropReturn line ++ '\n' :: normalized rest := by
  have hlast : (line ++ '\n' :: rest).getLast? = some '\n' ↔
      rest = [] ∨ rest.getLast? = some '\n' := by
    cases rest <;> simp [List.getLast?_cons_cons]
  simp only [normalized, bareFeeds_append_cons h, hlast]
  simp

/-- Lines that are terminated again are the text up to its line ends. -/
theorem unlines_lines (t : Text) : unlines ['\n'] (lines t) = normalized t := by
  induction t using lineInduction with
  | last piece hp =>
    by_cases hne : piece = []
    · subst hne; rfl
    · have hlast : piece.getLast? ≠ some '\n' := fun hl ↦ hp (List.mem_of_getLast? hl)
      simp [lines_of_notMem hp hne, unlines, normalized, bareFeeds_of_notMem hp, hne, hlast]
  | line piece rest hp ih =>
    rw [lines_append_cons hp, normalized_append_cons hp, ← ih]
    simp [unlines]

end HeaderStamp.Text
