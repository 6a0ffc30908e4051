import HeaderStamp.Config.Basic
import HeaderStamp.Proofs.Insertion.Outcome
import HeaderStamp.Proofs.Insertion.Preamble

namespace HeaderStamp

theorem Text.occursIn_iff {needle t : Text} : occursIn needle t = true ↔ needle <:+: t := by
  induction t with
  | nil => simp [occursIn]
  | cons c t ih =>
    rw [occursIn, Bool.or_eq_true, List.isPrefixOf_iff_prefix, ih, List.infix_cons_iff]

namespace Detector

variable {detector : Detector}

theorem finds_iff {lines : List Text} : detector.finds lines = true ↔
    ∃ line ∈ lines.take detector.window, detector.marker <:+: line := by
  simp only [finds, List.any_eq_true, Text.occursIn_iff]

theorem finds_of_getElem? {lines : List Text} {line : Text} {i : Nat} (h : lines[i]? = some line)
    (hi : i < detector.window) (hm : detector.marker <:+: line) : detector.finds lines = true := by
  have hmem : line ∈ lines.take detector.window :=
    List.mem_of_getElem? ((List.getElem?_take_of_lt hi).trans h)
  exact finds_iff.mpr ⟨line, hmem, hm⟩

theorem finds_append {lines : List Text} (h : detector.finds lines = true) (more : List Text) :
    detector.finds (lines ++ more) = true := by
  obtain ⟨line, hl, hm⟩ := finds_iff.mp h
  rw [finds_iff, List.take_append]
  exact ⟨line, List.mem_append_left _ hl, hm⟩

end Detector

namespace LineEnding

variable (ending : LineEnding)

theorem startsWith_reread {mark : Text} (h : '\r' ∉ mark) (line : Text) :
    Inserter.startsWith mark (ending.reread line) = Inserter.startsWith mark line := by
  cases ending with
  | crlf => rfl
  | lf =>
    rcases Text.dropReturn_eq_or line with he | he
    · have hne : mark ≠ Text.dropReturn line ++ ['\r'] := fun hm ↦ h (by simp [hm])
      have hpre : mark.isPrefixOf (Text.dropReturn line) = mark.isPrefixOf line := by
        rw [Bool.eq_iff_iff, List.isPrefixOf_iff_prefix, List.isPrefixOf_iff_prefix]
        conv_rhs => rw [he]
        rw [List.prefix_concat_iff, or_iff_right hne]
      rw [reread, Inserter.startsWith, Inserter.startsWith, hpre]
    · rw [reread, he]

theorem isBlank_reread (line : Text) :
    Text.isBlank (ending.reread line) = Text.isBlank line := by
  cases ending with
  | crlf => rfl
  | lf =>
    rcases Text.dropReturn_eq_or line with he | he
    · conv_rhs => rw [he]
      simp [reread, Text.isBlank, show Text.isSpace '\r' = true by decide]
    · rw [reread, he]

end LineEnding

namespace Inserter

variable {inserter : Inserter} {detector : Detector} {directives older blanks below : List Text}

theorem hasHeader_of_getElem? {lines : List Text} {line : Text} {i : Nat}
    (h : lines[i]? = some line) (hm : detector.marker <:+: line) (hlow : inserter.index lines ≤ i)
    (hhigh : i < inserter.index lines + detector.window) :
    inserter.hasHeader detector lines = true := by
  have hdrop : (lines.drop (inserter.index lines))[i - inserter.index lines]? = some line := by
    rw [List.getElem?_drop, Nat.add_sub_cancel' hlow, h]
  rw [hasHeader, Detector.finds_of_getElem? hdrop (by omega) hm, Bool.or_true]

/-- Read again, the lines above the index are parted in the same way, if what follows them is taken
neither for a blank line nor, where nothing but directives stands above it, for a directive. -/
theorem Parted.reread (h : Parted inserter directives older blanks below)
    (hdir : '\r' ∉ inserter.directive) (halt : '\r' ∉ inserter.altDirective) {rest : List Text}
    (hfresh : older ++ blanks = [] → ∀ line ∈ rest.head?,
      ¬ startsWith inserter.directive line ∧ ¬ startsWith inserter.altDirective line)
    (hrest : ∀ line ∈ rest.head?, ¬ Text.isBlank line) (ending : LineEnding) :
    Parted inserter (directives.map ending.reread) (older.map ending.reread)
      (blanks.map ending.reread) rest where
  directives_all := by simpa [ending.startsWith_reread hdir] using h.directives_all
  directives_end := by
    rw [← List.map_append]
    cases hcons : older ++ blanks with
    | nil => exact fun line hl ↦ (hfresh hcons line hl).1
    | cons line more =>
      have hend := h.directives_end
      rw [hcons] at hend
      simpa [ending.startsWith_reread hdir] using hend
  older_length := by simpa using h.older_length
  older_all := by simpa [ending.startsWith_reread halt] using h.older_all
  older_end := by
    intro ho
    obtain rfl : older = [] := List.map_eq_nil_iff.mp ho
    cases hcons : blanks with
    | nil => exact fun line hl ↦ (hfresh hcons line hl).2
    | cons line more =>
      have hend := h.older_end rfl
      rw [hcons] at hend
      simpa [ending.startsWith_reread halt] using hend
  blanks_all := by simpa [ending.isBlank_reread] using h.blanks_all
  blanks_end := hrest

/-- Read again, the lines above the index are skipped by the same rules, if there is one among them
that is no directive: whatever follows cannot be taken for a directive then. -/
theorem Parted.index_reread (h : Parted inserter directives older blanks below)
    (hdir : '\r' ∉ inserter.directive) (halt : '\r' ∉ inserter.altDirective)
    (hne : older ++ blanks ≠ []) {rest : List Text}
    (hrest : ∀ line ∈ rest.head?, ¬ Text.isBlank line) (ending : LineEnding) :
    inserter.index ((directives ++ older ++ blanks).map ending.reread ++ rest) =
      (directives ++ older ++ blanks).length := by
  have hparted := h.reread hdir halt (fun hnil ↦ absurd hnil hne) hrest ending
  simpa using hparted.index_eq

theorem Parted.index_reread_directives (h : Parted inserter directives older blanks below)
    (hdir : '\r' ∉ inserter.directive) (hnil : older ++ blanks = []) (rest : List Text)
    (ending : LineEnding) :
    inserter.index ((directives ++ older ++ blanks).map ending.reread ++ rest) =
      (directives ++ older ++ blanks).length + inserter.index rest := by
  rw [List.append_assoc, hnil, List.append_nil, index_append, List.length_map]
  simpa [ending.startsWith_reread hdir] using h.directives_all

/-- Of two shown lines the first of which is no directive, the index skips one at most. -/
theorem index_cons_cons_le {first second : Text} (hdir : ¬ startsWith inserter.directive first)
    (hfirst : ¬ Text.isBlank first) (hsecond : ¬ Text.isBlank second) (more : List Text) :
    inserter.index (first :: second :: more) ≤ 1 := by
  by_cases halt : startsWith inserter.altDirective first
  · have hparted : Parted inserter [] [first] [] (second :: more) :=
      ⟨by simp, by simpa using hdir, by simp, by simpa using halt, by simp, by simp,
        by simpa using hsecond⟩
    exact hparted.index_eq.le
  · have hparted : Parted inserter [] [] [] (first :: second :: more) :=
      ⟨by simp, by simpa using hdir, by simp, by simp, by simpa using halt, by simp,
        by simpa using hfirst⟩
    exact hparted.index_eq.le.trans (by simp)

theorem lines_spliced (h : Parted inserter directives older blanks below) {content : Text}
    (hc : Text.lines content = directives ++ older ++ blanks ++ below) (header : List Text) :
    Text.lines (inserter.spliced header content) =
      (directives ++ older ++ blanks).map inserter.ending.reread ++
        Text.lines (Text.unlines inserter.ending.text
          (header ++ (if below = [] then [] else [[]]) ++ below)) := by
  have hfree : ∀ line ∈ directives ++ older ++ blanks, '\n' ∉ line := fun line hl ↦
    Text.feed_notMem_of_mem_lines (hc ▸ List.mem_append_left below hl)
  rw [spliced, splice, hc, h.take_index, h.drop_index, ← inserter.ending.lines_unlines_append hfree]
  simp only [Text.unlines_append, List.append_assoc]

end Inserter

/-- The top of a header that a detector finds again: a first line that shows something, and the
stem of a second line that holds the marker where no line end cuts it off. -/
structure Detector.Lasting (detector : Detector) (first stem : Text) : Prop where
  window : 2 ≤ detector.window
  first_line : '\n' ∉ first
  first_shown : ¬ Text.isBlank first
  stem_line : '\n' ∉ stem
  stem_end : stem.getLast? ≠ some '\r'
  stem_shown : ¬ Text.isBlank stem
  marked : detector.marker <:+: stem

namespace Detector.Lasting

variable {detector : Detector} {first stem : Text}

theorem getElem?_second (above : List Text) (first second : Text) (more : List Text) :
    (above ++ first :: second :: more)[above.length + 1]? = some second := by
  rw [List.getElem?_append_right (Nat.le_succ _)]
  simp

theorem hasHeader_of_second (h : detector.Lasting first stem) {inserter : Inserter}
    {above : List Text} {top second : Text} {more : List Text}
    (hlow : above.length ≤ inserter.index (above ++ top :: second :: more))
    (hhigh : inserter.index (above ++ top :: second :: more) ≤ above.length + 1)
    (hmarked : detector.marker <:+: second) :
    inserter.hasHeader detector (above ++ top :: second :: more) = true := by
  have hwindow := h.window
  exact Inserter.hasHeader_of_getElem? (getElem?_second above top second more) hmarked hhigh
    (by omega)

theorem not_isBlank_append (h : detector.Lasting first stem) (rest : Text) :
    ¬ Text.isBlank (stem ++ rest) := by
  intro hblank
  rw [Text.isBlank, List.all_append, Bool.and_eq_true] at hblank
  exact h.stem_shown hblank.1

theorem lines_append (h : detector.Lasting first stem) (ending : LineEnding) (rest : Text) :
    ∃ second more, Text.lines (first ++ (ending.text ++ (stem ++ rest))) =
      ending.reread first :: second :: more ∧
      ¬ Text.isBlank second ∧ detector.marker <:+: second := by
  have hne : stem ≠ [] := by
    rintro rfl
    exact h.stem_shown rfl
  obtain ⟨second, more, hlines, hprefix⟩ :=
    Text.exists_lines_append h.stem_line hne h.stem_end rest
  refine ⟨second, more, ?_, ?_, h.marked.trans hprefix.isInfix⟩
  · rw [ending.lines_append h.first_line, hlines]
  · obtain ⟨tail, rfl⟩ := hprefix
    exact h.not_isBlank_append tail

theorem exists_lines_spliced (h : detector.Lasting first stem) {inserter : Inserter}
    {directives older blanks below : List Text}
    (hparted : inserter.Parted directives older blanks below) {content : Text}
    (hc : Text.lines content = directives ++ older ++ blanks ++ below) (rest : Text)
    (tail : List Text) :
    ∃ second more, Text.lines (inserter.spliced (first :: (stem ++ rest) :: tail) content) =
      (directives ++ older ++ blanks).map inserter.ending.reread ++
        inserter.ending.reread first :: second :: more ∧
      ¬ Text.isBlank second ∧ detector.marker <:+: second := by
  obtain ⟨second, more, hlines, hshown, hmarked⟩ := h.lines_append inserter.ending
    (rest ++ inserter.ending.text ++ Text.unlines inserter.ending.text
      (tail ++ (if below = [] then [] else [[]]) ++ below))
  refine ⟨second, more, ?_, hshown, hmarked⟩
  rw [Inserter.lines_spliced hparted hc, ← hlines]
  simp [Text.unlines]

theorem hasHeader_spliced_of_ne_nil (h : detector.Lasting first stem) {inserter : Inserter}
    (hdir : '\r' ∉ inserter.directive) (halt : '\r' ∉ inserter.altDirective)
    {directives older blanks below : List Text}
    (hparted : inserter.Parted directives older blanks below) {content : Text}
    (hc : Text.lines content = directives ++ older ++ blanks ++ below)
    (hne : older ++ blanks ≠ []) (rest : Text) (tail : List Text) :
    inserter.hasHeader detector
      (Text.lines (inserter.spliced (first :: (stem ++ rest) :: tail) content)) = true := by
  obtain ⟨second, more, hlines, hshown, hmarked⟩ := h.exists_lines_spliced hparted hc rest tail
  have hfirst : ∀ line ∈ (inserter.ending.reread first :: second :: more).head?,
      ¬ Text.isBlank line := by
    simpa [inserter.ending.isBlank_reread] using h.first_shown
  have hindex := hparted.index_reread hdir halt hne hfirst inserter.ending
  rw [hlines]
  exact h.hasHeader_of_second (by rw [hindex, List.length_map])
    (by rw [hindex, List.length_map]; omega) hmarked

theorem hasHeader_spliced (h : detector.Lasting first stem) {inserter : Inserter}
    (hdir : '\r' ∉ inserter.directive) (halt : '\r' ∉ inserter.altDirective)
    (hfirst : ¬ Inserter.startsWith inserter.directive first) (rest : Text) (tail : List Text)
    (content : Text) :
    inserter.hasHeader detector
      (Text.lines (inserter.spliced (first :: (stem ++ rest) :: tail) content)) = true := by
  obtain ⟨directives, older, blanks, below, hc, hparted⟩ :=
    inserter.exists_parted (Text.lines content)
  by_cases hne : older ++ blanks = []
  · -- below directives alone the first line might still be taken for the older directive
    obtain ⟨second, more, hlines, hshown, hmarked⟩ := h.exists_lines_spliced hparted hc rest tail
    have hindex := hparted.index_reread_directives hdir hne
      (inserter.ending.reread first :: second :: more) inserter.ending
    have hle : inserter.index (inserter.ending.reread first :: second :: more) ≤ 1 :=
      Inserter.index_cons_cons_le (by rwa [inserter.ending.startsWith_reread hdir])
        (by rw [inserter.ending.isBlank_reread]; exact h.first_shown) hshown more
    rw [hlines]
    exact h.hasHeader_of_second (by rw [hindex, List.length_map]; omega)
      (by rw [hindex, List.length_map]; omega) hmarked
  · exact h.hasHeader_spliced_of_ne_nil hdir halt hparted hc hne rest tail

/-- The first insertion is the last one. -/
theorem insert_insert (h : detector.Lasting first stem) {inserter : Inserter}
    (hdir : '\r' ∉ inserter.directive) (halt : '\r' ∉ inserter.altDirective)
    (hfirst : ¬ Inserter.startsWith inserter.directive first) {header : List Text} {rest : Text}
    {tail : List Text} (hheader : header = first :: (stem ++ rest) :: tail) (later : List Text)
    (content : Text) :
    inserter.insert detector later (inserter.insert detector header content).content =
      ⟨(inserter.insert detector header content).content, false⟩ := by
  apply Inserter.insert_of_hasHeader
  cases hfound : inserter.hasHeader detector (Text.lines content) with
  | true => rw [Inserter.insert_of_hasHeader hfound, hfound]
  | false =>
    subst hheader
    rw [Inserter.insert_of_not_hasHeader (List.cons_ne_nil _ _) hfound]
    dsimp only
    exact h.hasHeader_spliced hdir halt hfirst rest tail content

end Detector.Lasting

namespace Text

theorem not_isBlank_of_mem {t : Text} {c : Char} (h : c ∈ t) (hc : isSpace c = false) :
    ¬ isBlank t := by
  intro hblank
  rw [List.all_eq_true.mp hblank c h] at hc
  exact Bool.noConfusion hc

end Text

namespace HeaderSettings

def copyrightLine (settings : HeaderSettings) : Text :=
  settings.commentMark ++ ' ' :: ("Copyright © ".toList ++ settings.year ++ ' ' :: settings.holder)

def markerStem (settings : HeaderSettings) : Text :=
  settings.commentMark ++ ' ' :: (settings.marker ++ ": ".toList)

theorem not_isBlank_copyrightLine (settings : HeaderSettings) :
    ¬ Text.isBlank settings.copyrightLine :=
  Text.not_isBlank_of_mem (c := 'C') (by simp [copyrightLine]) (by decide)

theorem exists_header_eq (settings : HeaderSettings) (path name : Text) (metadata : Metadata) :
    ∃ tail, settings.header path name metadata =
      settings.copyrightLine :: (settings.markerStem ++ settings.license) :: tail := by
  refine ⟨(settings.header path name metadata).drop 2, ?_⟩
  simp [header, copyrightLine, markerStem]

theorem lasting {settings : HeaderSettings} {detector : Detector}
    (hmark : '\n' ∉ settings.commentMark) (hyear : '\n' ∉ settings.year)
    (hholder : '\n' ∉ settings.holder) (hspdx : '\n' ∉ settings.marker)
    (hmarker : detector.marker = settings.marker) (hwindow : 2 ≤ detector.window) :
    detector.Lasting settings.copyrightLine settings.markerStem where
  window := hwindow
  first_line := by simp [copyrightLine, hmark, hyear, hholder]
  first_shown := settings.not_isBlank_copyrightLine
  stem_line := by simp [markerStem, hmark, hspdx]
  stem_end := by simp [markerStem, List.getLast?_cons]
  stem_shown := Text.not_isBlank_of_mem (c := ':') (by simp [markerStem]) (by decide)
  marked := by
    rw [hmarker]
    exact ⟨settings.commentMark ++ [' '], ": ".toList, by simp [markerStem]⟩

end HeaderSettings

namespace Inserter

def insertEach (inserter : Inserter) (detector : Detector) (content : Text) :
    List (List Text) → List Insertion
  | [] => []
  | header :: headers =>
    let insertion := inserter.insert detector header content
    insertion :: inserter.insertEach detector insertion.content headers

theorem tail_insertEach (inserter : Inserter) (detector : Detector) (content : Text)
    (header : List Text) (headers : List (List Text)) :
    (inserter.insertEach detector content (header :: headers)).tail =
      inserter.insertEach detector (inserter.insert detector header content).content headers := rfl

theorem insertEach_settled {inserter : Inserter} {detector : Detector} {content : Text}
    (h : ∀ header, inserter.insert detector header content = ⟨content, false⟩)
    (headers : List (List Text)) :
    ∀ insertion ∈ inserter.insertEach detector content headers, insertion = ⟨content, false⟩ := by
  induction headers with
  | nil => simp [insertEach]
  | cons header headers ih =>
    intro insertion hm
    simp only [insertEach, h header, List.mem_cons] at hm
    exact hm.elim id (ih insertion)

/-- Once a header has been put into a content, no header is put into it again, and of any number of
insertions in a row only the first one can change it. -/
theorem insert_once (inserter : Inserter) (detector : Detector) (settings : HeaderSettings)
    (path name : Text) (metadata : Metadata) (content : Text)
    (hdir : '\r' ∉ inserter.directive) (halt : '\r' ∉ inserter.altDirective)
    (hmark : '\n' ∉ settings.commentMark) (hyear : '\n' ∉ settings.year)
    (hholder : '\n' ∉ settings.holder) (hspdx : '\n' ∉ settings.marker)
    (hfirst : ∀ line ∈ (settings.header path name metadata).head?,
      startsWith inserter.directive line = false)
    (hmarker : detector.marker = settings.marker) (hwindow : 2 ≤ detector.window) :
    let header := settings.header path name metadata
    let once := (inserter.insert detector header content).content
    (∀ later, inserter.insert detector later once = ⟨once, false⟩) ∧
      ∀ later, ∀ insertion ∈ (inserter.insertEach detector content (header :: later)).tail,
        insertion = ⟨once, false⟩ := by
  intro header once
  obtain ⟨tail, hheader⟩ := settings.exists_header_eq path name metadata
  have hlasting := HeaderSettings.lasting hmark hyear hholder hspdx hmarker hwindow
  have hfirst : ¬ startsWith inserter.directive settings.copyrightLine := by
    simpa [hheader] using hfirst
  have hsettled (later : List Text) : inserter.insert detector later once = ⟨once, false⟩ :=
    hlasting.insert_insert hdir halt hfirst hheader later content
  refine ⟨hsettled, fun later ↦ ?_⟩
  rw [tail_insertEach]
  exact insertEach_settled hsettled later

theorem insert_once_below_directive :
    let inserter : Inserter := ⟨"//go:build".toList, "// +build".toList, .crlf⟩
    let detector : Detector := ⟨"SPDX-License-Identifier".toList, 2⟩
    let settings : HeaderSettings :=
      { Config.builtin.settings "2025".toList with license := "MIT\nor later".toList }
    let header := settings.header "main.go".toList "main".toList ⟨none, [], [], "\r\n".toList⟩
    let first := inserter.insert detector header "//go:build linux\r\n\npackage main\r".toList
    first.changed = true ∧
      (∀ later, inserter.insert detector later first.content = ⟨first.content, false⟩) ∧
      ∀ later, ∀ insertion ∈ (inserter.insertEach detector
        "//go:build linux\r\n\npackage main\r".toList (header :: later)).tail,
          insertion = ⟨first.content, false⟩ :=
  ⟨by decide +kernel,
    insert_once _ _ _ _ _ _ _ (by decide) (by decide) (by decide) (by decide) (by decide)
      (by decide) (by decide +kernel) rfl (by decide)⟩

end Inserter

end HeaderStamp
