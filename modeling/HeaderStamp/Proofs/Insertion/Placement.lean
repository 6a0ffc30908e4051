import HeaderStamp.Proofs.Insertion.Idempotence

namespace HeaderStamp.Inserter

variable {inserter : Inserter} {directives older blanks below header : List Text}

def underPreamble (header below : List Text) : List Text :=
  header ++ (if below = [] then [] else [[]]) ++ below

theorem feed_notMem_underPreamble (hheader : ∀ line ∈ header, '\n' ∉ line)
    (hbelow : ∀ line ∈ below, '\n' ∉ line) : ∀ line ∈ underPreamble header below, '\n' ∉ line := by
  intro line hline
  simp only [underPreamble, List.mem_append] at hline
  rcases hline with (hline | hline) | hline
  · exact hheader line hline
  · split at hline <;> simp_all
  · exact hbelow line hline

theorem Parted.lines_spliced_eq_map (h : Parted inserter directives older blanks below)
    {content : Text} (hc : Text.lines content = directives ++ older ++ blanks ++ below)
    (hheader : ∀ line ∈ header, '\n' ∉ line) :
    Text.lines (inserter.spliced header content) =
      (directives ++ older ++ blanks).map inserter.ending.reread ++
        (underPreamble header below).map inserter.ending.reread := by
  have hbelow : ∀ line ∈ below, '\n' ∉ line := by
    intro line hline
    have hmem : line ∈ Text.lines content := by
      rw [hc]
      exact List.mem_append_right _ hline
    exact Text.feed_notMem_of_mem_lines hmem
  have hlines := inserter.ending.lines_unlines_append (feed_notMem_underPreamble hheader hbelow) []
  rw [List.append_nil, show Text.lines [] = [] from rfl, List.append_nil] at hlines
  rw [lines_spliced h hc, ← underPreamble, hlines]

/-- The lines above a header are parted as before, if its first line shows something and is taken
for no directive. -/
theorem Parted.underPreamble (h : Parted inserter directives older blanks below)
    (hdir : '\r' ∉ inserter.directive) (halt : '\r' ∉ inserter.altDirective) {first : Text}
    (hshown : ¬ Text.isBlank first)
    (hfirst : ¬ startsWith inserter.directive first ∧ ¬ startsWith inserter.altDirective first)
    (more : List Text) (ending : LineEnding) :
    Parted inserter (directives.map ending.reread) (older.map ending.reread)
      (blanks.map ending.reread) ((underPreamble (first :: more) below).map ending.reread) := by
  rw [Inserter.underPreamble, List.cons_append, List.cons_append, List.map_cons]
  apply h.reread hdir halt
  · intro _
    simpa [ending.startsWith_reread hdir, ending.startsWith_reread halt] using hfirst
  · simpa [ending.isBlank_reread] using hshown

/-- The insertion index counts the directives, an older directive and the blank lines that lead the
lines of a file. A header that is taken for no directive is put right below them, and they are what
stands above the index again once it is there. -/
theorem insert_below_preamble (inserter : Inserter) (lines : List Text) :
    ∃ directives older blanks below, lines = directives ++ older ++ blanks ++ below ∧
      Parted inserter directives older blanks below ∧
      inserter.index lines = directives.length + older.length + blanks.length ∧
      inserter.index lines ≤ lines.length ∧
      ∀ (detector : Detector) (settings : HeaderSettings) (path name : Text) (metadata : Metadata)
        (content : Text), Text.lines content = lines →
        let header := settings.header path name metadata
        let insertion := inserter.insert detector header content
        insertion.changed = true → inserter.ending = .lf → '\r' ∉ inserter.directive →
        '\r' ∉ inserter.altDirective → (∀ line ∈ header, '\n' ∉ line) →
        (∀ line ∈ header.head?, ¬ startsWith inserter.directive line ∧
          ¬ startsWith inserter.altDirective line) →
        Text.lines insertion.content =
            (directives ++ older ++ blanks).map Text.dropReturn ++
              (underPreamble header below).map Text.dropReturn ∧
          Parted inserter (directives.map Text.dropReturn) (older.map Text.dropReturn)
            (blanks.map Text.dropReturn) ((underPreamble header below).map Text.dropReturn) ∧
          inserter.index (Text.lines insertion.content) = inserter.index lines := by
  obtain ⟨directives, older, blanks, below, rfl, h⟩ := inserter.exists_parted lines
  have hindex := h.index_eq
  refine ⟨directives, older, blanks, below, rfl, h, ?_, ?_, ?_⟩
  · simpa [Nat.add_assoc] using hindex
  · rw [hindex]
    simp
  · intro detector settings path name metadata content hc header insertion hchanged hlf hdir halt
      hheader hfirst
    obtain ⟨tail, htop⟩ := settings.exists_header_eq path name metadata
    have hcontent : insertion.content = inserter.spliced header content :=
      content_insert (List.cons_ne_nil _ _) hchanged
    have hlines := h.lines_spliced_eq_map hc hheader
    have hfirst : ¬ startsWith inserter.directive settings.copyrightLine ∧
        ¬ startsWith inserter.altDirective settings.copyrightLine := by
      apply hfirst
      simp [header, htop]
    have hparted := h.underPreamble hdir halt settings.not_isBlank_copyrightLine hfirst
      ((settings.markerStem ++ settings.license) :: tail) .lf
    rw [← htop] at hparted
    rw [hlf] at hlines
    refine ⟨hcontent ▸ hlines, hparted, ?_⟩
    rw [hcontent, hlines, hindex]
    simpa using hparted.index_eq

theorem insert_below_preamble_of_returns :
    let inserter := Config.builtin.inserter
    let settings := Config.builtin.settings "2025".toList
    let header := settings.header "main.go".toList "main".toList ⟨none, [], [], []⟩
    let content := "//go:build linux\r\n// +build linux\n \r\n\npackage main\r\n".toList
    let insertion := inserter.insert Config.builtin.detector header content
    inserter.index (Text.lines content) = 4 ∧ insertion.changed = true ∧
      (Text.lines insertion.content).take 4 =
        ["//go:build linux".toList, "// +build linux".toList, " ".toList, []] ∧
      inserter.index (Text.lines insertion.content) = 4 := by
  intro inserter settings header content insertion
  obtain ⟨directives, older, blanks, below, hc, h, -, -, hinsert⟩ :=
    insert_below_preamble inserter (Text.lines content)
  have hindex : inserter.index (Text.lines content) = 4 := by decide +kernel
  have hchanged : insertion.changed = true := by decide +kernel
  obtain ⟨hlines, -, hagain⟩ := hinsert Config.builtin.detector settings "main.go".toList
    "main".toList ⟨none, [], [], []⟩ content rfl hchanged rfl (by decide) (by decide)
    (by decide +kernel) (by decide +kernel)
  have habove : directives ++ older ++ blanks = (Text.lines content).take 4 := by
    rw [← hindex, hc, h.take_index]
  refine ⟨hindex, hchanged, ?_, hagain.trans hindex⟩
  rw [hlines, habove, List.take_left' (by decide +kernel)]
  decide +kernel

end HeaderStamp.Inserter
