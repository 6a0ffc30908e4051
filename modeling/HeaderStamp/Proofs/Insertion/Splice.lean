import HeaderStamp.Config.Basic
import HeaderStamp.Proofs.Insertion.Outcome

namespace HeaderStamp

namespace Text

theorem bareFeeds_eq_self {t : Text} (h : ¬ ['\r', '\n'] <:+: t) : bareFeeds t = t := by
  induction t with
  | nil => rfl
  | cons c t ih =>
    have ht : ¬ ['\r', '\n'] <:+: t := fun hi ↦ h (hi.trans (List.suffix_cons c t).isInfix)
    rw [bareFeeds, ih ht]
    rintro rest rfl rfl
    exact h (List.prefix_append ['\r', '\n'] rest).isInfix

theorem normalized_eq_self {t : Text} (h : ¬ ['\r', '\n'] <:+: t)
    (hend : t = [] ∨ t.getLast? = some '\n') : normalized t = t := by
  rw [normalized, bareFeeds_eq_self h, if_pos hend, List.append_nil]

theorem unlines_feed_end (ls : List Text) :
    unlines ['\n'] ls = [] ∨ (unlines ['\n'] ls).getLast? = some '\n' := by
  cases ls using List.reverseRecOn with
  | nil => exact .inl rfl
  | append_singleton ls line => exact .inr (by simp [unlines])

theorem unlines_feed_eq_nil_iff (ls : List Text) : unlines ['\n'] ls = [] ↔ ls = [] := by
  cases ls <;> simp [unlines]

theorem normalized_eq_append (t : Text) (n : Nat) :
    normalized t = unlines ['\n'] ((lines t).take n) ++ unlines ['\n'] ((lines t).drop n) := by
  rw [← unlines_append, List.take_append_drop, unlines_lines]

end Text

namespace Inserter

variable {inserter : Inserter} {detector : Detector}

theorem spliced_lf (hlf : inserter.ending = .lf) (header : List Text) (content : Text) :
    inserter.spliced header content =
      Text.unlines ['\n'] ((Text.lines content).take (inserter.index (Text.lines content))) ++
      Text.unlines ['\n'] header ++
      (if (Text.lines content).drop (inserter.index (Text.lines content)) = [] then []
        else ['\n']) ++
      Text.unlines ['\n'] ((Text.lines content).drop (inserter.index (Text.lines content))) := by
  rw [spliced, hlf, LineEnding.text, splice]
  simp only [Text.unlines_append]
  split <;> rfl

/-- An insertion with line feeds keeps every character of a content but for the spelling of its line
ends: the header and one blank line below it are all that is new. -/
theorem insert_splices (settings : HeaderSettings) (path name : Text) (metadata : Metadata)
    (content : Text) (hlf : inserter.ending = .lf)
    (hchanged :
      (inserter.insert detector (settings.header path name metadata) content).changed = true) :
    ∃ above below, Text.normalized content = above ++ below ∧
      above = Text.unlines ['\n']
        ((Text.lines content).take (inserter.index (Text.lines content))) ∧
      (above = [] ∨ above.getLast? = some '\n') ∧
      (inserter.insert detector (settings.header path name metadata) content).content =
        above ++ Text.unlines ['\n'] (settings.header path name metadata) ++
          (if below = [] then [] else ['\n']) ++ below ∧
      (¬ ['\r', '\n'] <:+: content → content = [] ∨ content.getLast? = some '\n' →
        content = above ++ below) := by
  have hne : settings.header path name metadata ≠ [] := List.cons_ne_nil _ _
  have hbare := (changed_insert hne).symm.trans hchanged
  rw [Bool.not_eq_true'] at hbare
  have hcut := Text.normalized_eq_append content (inserter.index (Text.lines content))
  refine ⟨_, _, hcut, rfl, Text.unlines_feed_end _, ?_, ?_⟩
  · rw [insert_of_not_hasHeader hne hbare, spliced_lf hlf]
    simp only [Text.unlines_feed_eq_nil_iff]
  · intro hpairs hend
    rw [← hcut, Text.normalized_eq_self hpairs hend]

theorem insert_splices_below_directive :
    let inserter := Config.builtin.inserter
    let detector := Config.builtin.detector
    let settings := Config.builtin.settings "2025".toList
    let header := settings.header "main.go".toList "main".toList ⟨none, [], [], []⟩
    let content := "//go:build linux\r\n\npackage main\r".toList
    (inserter.insert detector header content).changed = true ∧
      ∃ above below, Text.normalized content = above ++ below ∧
        above = Text.unlines ['\n']
          ((Text.lines content).take (inserter.index (Text.lines content))) ∧
        (above = [] ∨ above.getLast? = some '\n') ∧
        (inserter.insert detector header content).content =
          above ++ Text.unlines ['\n'] header ++ (if below = [] then [] else ['\n']) ++ below ∧
        (¬ ['\r', '\n'] <:+: content → content = [] ∨ content.getLast? = some '\n' →
          content = above ++ below) :=
  ⟨by decide +kernel, insert_splices _ _ _ _ _ rfl (by decide +kernel)⟩

end Inserter

end HeaderStamp
