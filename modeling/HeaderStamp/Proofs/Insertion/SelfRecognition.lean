import HeaderStamp.Proofs.Insertion.Idempotence

namespace HeaderStamp

def Text.OneLine (t : Text) : Prop := '\n' ∉ t ∧ '\r' ∉ t

theorem LineEnding.reread_of_oneLine (ending : LineEnding) {line : Text} (h : line.OneLine) :
    ending.reread line = line := by
  cases ending with
  | lf => exact Text.dropReturn_of_notMem h.2
  | crlf => rfl

theorem LineEnding.map_reread_of_oneLine (ending : LineEnding) {ls : List Text}
    (h : ∀ line ∈ ls, line.OneLine) : ls.map ending.reread = ls :=
  (List.map_congr_left fun line hl ↦ ending.reread_of_oneLine (h line hl)).trans (List.map_id' ls)

theorem LineEnding.lines_unlines_of_oneLine (ending : LineEnding) {ls : List Text}
    (h : ∀ line ∈ ls, line.OneLine) (rest : Text) :
    Text.lines (Text.unlines ending.text ls ++ rest) = ls ++ Text.lines rest := by
  rw [ending.lines_unlines_append fun line hl ↦ (h line hl).1, ending.map_reread_of_oneLine h]

/-- Read as a content of its own, the header shows the marker where a header would be looked for.
Where directives hold the marker themselves, no header is ever put below one. -/
def Inserter.Recognizes (inserter : Inserter) (detector : Detector) (header : List Text) : Prop :=
  detector.marker <:+: inserter.directive ∨
    detector.finds (header.drop (inserter.index header)) = true

theorem Inserter.lines_spliced_of_oneLine {inserter : Inserter}
    {directives older blanks below : List Text}
    (hparted : inserter.Parted directives older blanks below) {content : Text}
    (hc : Text.lines content = directives ++ older ++ blanks ++ below) {header : List Text}
    (hlines : ∀ line ∈ header, line.OneLine) :
    Text.lines (inserter.spliced header content) =
      (directives ++ older ++ blanks).map inserter.ending.reread ++ (header ++
        Text.lines (Text.unlines inserter.ending.text
          ((if below = [] then [] else [[]]) ++ below))) := by
  rw [lines_spliced hparted hc, List.append_assoc header, Text.unlines_append,
    inserter.ending.lines_unlines_of_oneLine hlines]

namespace Detector.Lasting

variable {detector : Detector} {first stem : Text} {inserter : Inserter} {rest : Text}
  {tail : List Text}

theorem marked_append (h : detector.Lasting first stem) (rest : Text) :
    detector.marker <:+: stem ++ rest := h.marked.trans (List.prefix_append stem rest).isInfix

theorem finds_header (h : detector.Lasting first stem) (rest : Text) (more : List Text) :
    detector.finds (first :: (stem ++ rest) :: more) = true :=
  finds_of_getElem? (i := 1) rfl h.window (h.marked_append rest)

theorem recognizes (h : detector.Lasting first stem)
    (hfirst : ¬ Inserter.startsWith inserter.directive first) (rest : Text) (tail : List Text) :
    inserter.Recognizes detector (first :: (stem ++ rest) :: tail) := by
  have hle : inserter.index (first :: (stem ++ rest) :: tail) ≤ 1 :=
    Inserter.index_cons_cons_le hfirst h.first_shown (h.not_isBlank_append rest) tail
  refine .inr (finds_of_getElem? (i := 1 - inserter.index (first :: (stem ++ rest) :: tail))
    ?_ (by have := h.window; omega) (h.marked_append rest))
  rw [List.getElem?_drop, Nat.add_sub_cancel' hle]
  rfl

/-- A header that is recognized is found again in every content, also below nothing but
directives. -/
theorem hasHeader_spliced_of_recognizes (h : detector.Lasting first stem)
    (hdir : '\r' ∉ inserter.directive) (halt : '\r' ∉ inserter.altDirective)
    (hlines : ∀ line ∈ first :: (stem ++ rest) :: tail, line.OneLine)
    (hrec : inserter.Recognizes detector (first :: (stem ++ rest) :: tail)) {content : Text}
    (hbare : inserter.hasHeader detector (Text.lines content) = false) :
    inserter.hasHeader detector
      (Text.lines (inserter.spliced (first :: (stem ++ rest) :: tail) content)) = true := by
  obtain ⟨directives, older, blanks, below, hc, hparted⟩ :=
    inserter.exists_parted (Text.lines content)
  by_cases hne : older ++ blanks = []
  swap
  · exact h.hasHeader_spliced_of_ne_nil hdir halt hparted hc hne rest tail
  rw [Inserter.lines_spliced_of_oneLine hparted hc hlines]
  have hindex := hparted.index_reread_directives hdir hne
  rw [List.append_assoc, hne, List.append_nil] at hindex ⊢
  rcases hrec with hmark | hfinds
  · cases directives with
    | nil =>
      have hfinds := h.finds_header rest tail
      rw [List.map_nil, List.nil_append, Inserter.hasHeader,
        Detector.finds_append hfinds, Bool.true_or]
    | cons line directives =>
      -- the directive at the very top would have shown the marker before
      have hstart := hparted.directives_all line List.mem_cons_self
      rw [Inserter.startsWith, Bool.and_eq_true, List.isPrefixOf_iff_prefix] at hstart
      have hfinds : detector.finds (Text.lines content) = true := by
        have hfirst : (Text.lines content)[0]? = some line := by rw [hc]; rfl
        have hwindow := h.window
        exact finds_of_getElem? hfirst (by omega) (hmark.trans hstart.2.isInfix)
      rw [Inserter.hasHeader, hfinds, Bool.true_or] at hbare
      exact Bool.noConfusion hbare
  · have hlt : inserter.index (first :: (stem ++ rest) :: tail) <
        (first :: (stem ++ rest) :: tail).length := by
      by_contra hle
      rw [List.drop_eq_nil_of_le (Nat.not_lt.mp hle), finds_iff, List.take_nil] at hfinds
      simp at hfinds
    rw [Inserter.hasHeader, hindex, Inserter.index_append_of_lt hlt, ← List.drop_drop,
      List.drop_left' (List.length_map _), List.drop_append_of_le_length hlt.le,
      Detector.finds_append hfinds, Bool.or_true]

/-- So many directives that none of the lines below them are looked at from the top. -/
theorem exists_lost_of_not_recognizes (h : detector.Lasting first stem)
    (hdir : inserter.directive.OneLine)
    (hlines : ∀ line ∈ first :: (stem ++ rest) :: tail, line.OneLine)
    (hrec : ¬ inserter.Recognizes detector (first :: (stem ++ rest) :: tail)) :
    ∃ content, inserter.hasHeader detector (Text.lines content) = false ∧
      inserter.hasHeader detector
        (Text.lines (inserter.spliced (first :: (stem ++ rest) :: tail) content)) = false := by
  obtain ⟨hmark, hlost⟩ := not_or.mp hrec
  have hstart : Inserter.startsWith inserter.directive inserter.directive = true := by
    by_contra hstart
    have hempty : inserter.directive = [] := by simpa [Inserter.startsWith] using hstart
    exact hrec (h.recognizes (by simp [Inserter.startsWith, hempty]) rest tail)
  let above := List.replicate detector.window inserter.directive
  have hparted : inserter.Parted above [] [] [] :=
    ⟨by simp [above, hstart], by simp, by simp, by simp, by simp, by simp, by simp⟩
  have habove : ∀ line ∈ above, line.OneLine := fun line hl ↦ List.eq_of_mem_replicate hl ▸ hdir
  have hunmarked (more : List Text) : detector.finds (above ++ more) = false := by
    rw [← Bool.not_eq_true, finds_iff]
    rintro ⟨line, hl, hm⟩
    rw [List.take_left' (List.length_replicate ..)] at hl
    exact hmark (List.eq_of_mem_replicate hl ▸ hm)
  have hc : Text.lines (Text.unlines inserter.ending.text above) = above ++ [] ++ [] ++ [] := by
    simpa using inserter.ending.lines_unlines_of_oneLine habove []
  have hspliced : Text.lines (inserter.spliced (first :: (stem ++ rest) :: tail)
      (Text.unlines inserter.ending.text above)) = above ++ first :: (stem ++ rest) :: tail := by
    rw [Inserter.lines_spliced_of_oneLine hparted hc hlines, List.append_nil, List.append_nil,
      inserter.ending.map_reread_of_oneLine habove, if_pos rfl]
    simp [Text.unlines]
  refine ⟨Text.unlines inserter.ending.text above, ?_, ?_⟩
  · rw [Inserter.hasHeader, hc, hparted.drop_index, List.append_nil, List.append_nil, hunmarked]
    simp [finds]
  · rw [Inserter.hasHeader, hspliced, hunmarked, Inserter.index_append hparted.directives_all,
      ← List.drop_drop, List.drop_left, Bool.false_or]
    exact Bool.eq_false_iff.mpr hlost

end Detector.Lasting

end HeaderStamp
