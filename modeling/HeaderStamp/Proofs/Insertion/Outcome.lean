import HeaderStamp.Proofs.Text.Lines

namespace HeaderStamp

namespace Text

theorem join_append_terminator (terminator : Text) {ls : List Text} (h : ls ≠ []) :
    join terminator ls ++ terminator = unlines terminator ls := by
  induction ls with
  | nil => exact absurd rfl h
  | cons line ls ih =>
    cases ls with
    | nil => simp [join, unlines]
    | cons next ls =>
      have ih := ih (List.cons_ne_nil _ _)
      simp only [join, unlines, List.flatMap_cons, List.intercalate_cons_cons] at ih ⊢
      rw [List.append_assoc, ih, List.append_assoc]

@[simp] theorem unlines_append (terminator : Text) (as bs : List Text) :
    unlines terminator (as ++ bs) = unlines terminator as ++ unlines terminator bs :=
  List.flatMap_append

end Text

namespace LineEnding

def reread : LineEnding → Text → Text
  | .lf => Text.dropReturn
  | .crlf => id

theorem exists_text_eq (ending : LineEnding) : ∃ front, ending.text = front ++ ['\n'] := by
  cases ending with
  | lf => exact ⟨[], rfl⟩
  | crlf => exact ⟨['\r'], rfl⟩

theorem lines_append (ending : LineEnding) {line : Text} (h : '\n' ∉ line) (rest : Text) :
    Text.lines (line ++ (ending.text ++ rest)) = ending.reread line :: Text.lines rest := by
  cases ending with
  | lf => exact Text.lines_append_cons h rest
  | crlf =>
    have hr : '\n' ∉ line ++ ['\r'] := by simpa using h
    have hlines := Text.lines_append_cons hr rest
    rw [Text.dropReturn_append_return] at hlines
    simpa [text, reread] using hlines

theorem lines_unlines_append (ending : LineEnding) {ls : List Text} (h : ∀ line ∈ ls, '\n' ∉ line)
    (rest : Text) :
    Text.lines (Text.unlines ending.text ls ++ rest) = ls.map ending.reread ++ Text.lines rest := by
  induction ls with
  | nil => rfl
  | cons line ls ih =>
    have ih := ih fun l hl ↦ h l (List.mem_cons_of_mem line hl)
    simp only [Text.unlines, List.flatMap_cons, List.append_assoc] at ih ⊢
    rw [ending.lines_append (h line List.mem_cons_self), ih, List.map_cons, List.cons_append]

theorem length_le_lines_unlines (ending : LineEnding) (ls : List Text) :
    ls.length ≤ (Text.lines (Text.unlines ending.text ls)).length := by
  obtain ⟨front, hfront⟩ := ending.exists_text_eq
  induction ls with
  | nil => simp
  | cons line ls ih =>
    have hcut := Text.lines_append_feed (line ++ front) (Text.unlines ending.text ls)
    have hne : Text.lines (line ++ front ++ ['\n']) ≠ [] := Text.lines_append_feed_ne_nil _ _
    have hpos := List.length_pos_iff.mpr hne
    have htext : Text.unlines ending.text (line :: ls) =
        line ++ front ++ '\n' :: Text.unlines ending.text ls := by
      simp [Text.unlines, hfront]
    rw [htext, hcut, List.length_append, List.length_cons]
    omega

end LineEnding

namespace Inserter

theorem splice_ne_nil (inserter : Inserter) {header : List Text} (h : header ≠ [])
    (lines : List Text) : inserter.splice header lines ≠ [] := by
  simp [splice, h]

theorem length_splice (inserter : Inserter) (header lines : List Text) :
    lines.length + header.length ≤ (inserter.splice header lines).length := by
  have hcut := congrArg List.length (List.take_append_drop (inserter.index lines) lines)
  simp only [splice, List.length_append] at hcut ⊢
  omega

/-- What an insertion makes of a content without a header: every line of the splice terminated. -/
def spliced (inserter : Inserter) (header : List Text) (content : Text) : Text :=
  Text.unlines inserter.ending.text (inserter.splice header (Text.lines content))

/-- A header always leaves its trace, if only in the number of lines. -/
theorem spliced_ne (inserter : Inserter) {header : List Text} (h : header ≠ [])
    (content : Text) : inserter.spliced header content ≠ content := by
  intro he
  have hpos := List.length_pos_iff.mpr h
  have hsplice := inserter.length_splice header (Text.lines content)
  have hlines := inserter.ending.length_le_lines_unlines
    (inserter.splice header (Text.lines content))
  rw [spliced] at he
  rw [he] at hlines
  omega

variable {inserter : Inserter} {detector : Detector} {header : List Text} {content : Text}

theorem insert_of_hasHeader (h : inserter.hasHeader detector (Text.lines content) = true) :
    inserter.insert detector header content = ⟨content, false⟩ := by
  simp [insert, insert?, h]

theorem insert_of_not_hasHeader (hne : header ≠ [])
    (h : inserter.hasHeader detector (Text.lines content) = false) :
    inserter.insert detector header content = ⟨inserter.spliced header content, true⟩ := by
  have htext := Text.join_append_terminator inserter.ending.text
    (inserter.splice_ne_nil hne (Text.lines content))
  have hspliced := inserter.spliced_ne hne content
  simp only [insert, insert?, h, htext]
  simpa [spliced] using hspliced

theorem changed_insert (hne : header ≠ []) :
    (inserter.insert detector header content).changed =
      !inserter.hasHeader detector (Text.lines content) := by
  cases h : inserter.hasHeader detector (Text.lines content) with
  | true => rw [insert_of_hasHeader h]; rfl
  | false => rw [insert_of_not_hasHeader hne h]; rfl

theorem content_insert (hne : header ≠ [])
    (h : (inserter.insert detector header content).changed = true) :
    (inserter.insert detector header content).content = inserter.spliced header content := by
  rw [changed_insert hne, Bool.not_eq_true'] at h
  rw [insert_of_not_hasHeader hne h]

theorem content_eq_iff : (inserter.insert detector header content).content = content ↔
    (inserter.insert detector header content).changed = false := by
  rw [insert]
  cases inserter.insert? detector header content with
  | none => simp
  | some new => simp

theorem content_ne_iff : (inserter.insert detector header content).content ≠ content ↔
    (inserter.insert detector header content).changed = true := by
  rw [Ne, content_eq_iff, Bool.not_eq_false]

end Inserter

end HeaderStamp
