import HeaderStamp.Proofs.Header.Characters
import HeaderStamp.Proofs.Text.Lines

namespace HeaderStamp

namespace Text

def Marked (mark t : Text) : Prop := ∀ line ∈ split '\n' t, mark <+: line

def Continues (mark t : Text) : Prop := ∀ line ∈ (split '\n' t).tail, mark <+: line

instance (mark t : Text) : Decidable (Marked mark t) :=
  inferInstanceAs (Decidable (∀ line ∈ split '\n' t, mark <+: line))

instance (mark t : Text) : Decidable (Continues mark t) :=
  inferInstanceAs (Decidable (∀ line ∈ (split '\n' t).tail, mark <+: line))

variable {mark t u : Text}

theorem marked_of_notMem (h : '\n' ∉ t) : Marked mark t ↔ mark <+: t := by
  rw [Marked, split_of_notMem h, List.forall_mem_singleton]

theorem continues_of_notMem (h : '\n' ∉ t) : Continues mark t := by
  rw [Continues, split_of_notMem h]
  exact List.forall_mem_nil _

theorem marked_append_feed {line : Text} (h : '\n' ∉ line) (rest : Text) :
    Marked mark (line ++ '\n' :: rest) ↔ mark <+: line ∧ Marked mark rest := by
  rw [Marked, split_append_cons h, List.forall_mem_cons, Marked]

theorem continues_append_feed {line : Text} (h : '\n' ∉ line) (rest : Text) :
    Continues mark (line ++ '\n' :: rest) ↔ Marked mark rest := by
  rw [Continues, split_append_cons h, List.tail_cons, Marked]

theorem continues_append {front : Text} (h : '\n' ∉ front) :
    Continues mark (front ++ t) ↔ Continues mark t := by
  by_cases ht : '\n' ∈ t
  · obtain ⟨line, rest, rfl, hline⟩ := List.eq_append_cons_of_mem ht
    have hfront : '\n' ∉ front ++ line := by simp [h, hline]
    rw [← List.append_assoc, continues_append_feed hfront, continues_append_feed hline]
  · have hboth : '\n' ∉ front ++ t := by simp [h, ht]
    exact iff_of_true (continues_of_notMem hboth) (continues_of_notMem ht)

theorem marked_append (h : '\n' ∉ mark) : Marked mark (mark ++ t) ↔ Continues mark t := by
  by_cases ht : '\n' ∈ t
  · obtain ⟨line, rest, rfl, hline⟩ := List.eq_append_cons_of_mem ht
    have hfront : '\n' ∉ mark ++ line := by simp [h, hline]
    rw [← List.append_assoc, marked_append_feed hfront, continues_append_feed hline]
    exact and_iff_right (List.prefix_append mark line)
  · have hboth : '\n' ∉ mark ++ t := by simp [h, ht]
    exact iff_of_true ((marked_of_notMem hboth).mpr (List.prefix_append mark t))
      (continues_of_notMem ht)

theorem prefix_append_cons {c : Char} (hc : c ∉ mark) :
    mark <+: t ++ c :: u ↔ mark <+: t := by
  constructor
  · intro h
    rcases List.prefix_or_prefix_of_prefix h (List.prefix_append t (c :: u)) with hmark | ht
    · exact hmark
    · obtain ⟨rest, rfl⟩ := ht
      cases rest with
      | nil => simp
      | cons d rest =>
        have hd : d = c := by
          rw [List.prefix_append_right_inj, List.cons_prefix_cons] at h
          exact h.1
        simp [hd] at hc
  · intro h
    exact h.trans (List.prefix_append t (c :: u))

theorem marked_append_cons {c : Char} (hc : c ∉ mark) (hfeed : c ≠ '\n') :
    Marked mark (t ++ c :: u) ↔ Marked mark t ∧ Continues mark u := by
  induction t using lineInduction with
  | last line hline =>
    have hfront : '\n' ∉ line ++ [c] := by simp [hline, hfeed.symm]
    rw [marked_of_notMem hline]
    by_cases hu : '\n' ∈ u
    · obtain ⟨next, rest, rfl, hnext⟩ := List.eq_append_cons_of_mem hu
      have hfirst : '\n' ∉ line ++ c :: next := by simp [hline, hfeed.symm, hnext]
      have hcut : line ++ c :: (next ++ '\n' :: rest) = (line ++ c :: next) ++ '\n' :: rest := by
        simp
      rw [hcut, marked_append_feed hfirst, continues_append_feed hnext, prefix_append_cons hc]
    · have hwhole : '\n' ∉ line ++ c :: u := by simp [hline, hfeed.symm, hu]
      rw [marked_of_notMem hwhole, prefix_append_cons hc]
      exact (and_iff_left (continues_of_notMem hu)).symm
  | line line rest hline ih =>
    have hcut : line ++ '\n' :: rest ++ c :: u = line ++ '\n' :: (rest ++ c :: u) := by simp
    rw [hcut, marked_append_feed hline, marked_append_feed hline, ih, and_assoc]

theorem continues_append_cons {c : Char} (hc : c ∉ mark) (hfeed : c ≠ '\n') :
    Continues mark (t ++ c :: u) ↔ Continues mark t ∧ Continues mark u := by
  by_cases ht : '\n' ∈ t
  · obtain ⟨line, rest, rfl, hline⟩ := List.eq_append_cons_of_mem ht
    have hcut : line ++ '\n' :: rest ++ c :: u = line ++ '\n' :: (rest ++ c :: u) := by simp
    rw [hcut, continues_append_feed hline, continues_append_feed hline,
      marked_append_cons hc hfeed]
  · have hfront : '\n' ∉ t ++ [c] := by simp [ht, hfeed.symm]
    have hcut : t ++ c :: u = (t ++ [c]) ++ u := by simp
    rw [hcut, continues_append hfront]
    exact (and_iff_right (continues_of_notMem ht)).symm

theorem continues_between {front back : Text} {c : Char} (hc : c ∉ mark) (hfeed : c ≠ '\n')
    (hfront : '\n' ∉ front) (hback : '\n' ∉ back) :
    Continues mark (front ++ t ++ c :: back) ↔ Continues mark t := by
  rw [continues_append_cons hc hfeed, continues_append hfront]
  exact and_iff_left (continues_of_notMem hback)

theorem marked_join {lines : List Text} (h : lines ≠ []) :
    Marked mark (join ['\n'] lines) ↔ ∀ line ∈ lines, Marked mark line := by
  rw [Marked, split_join '\n' h, List.forall_mem_flatMap]
  rfl

end Text

namespace Header

theorem eq_blank_of_mem_collapse {inRun : Bool} {t : Text} {c : Char} (h : c ∈ collapse inRun t)
    (hc : isSeparator c = true) : c = ' ' := by
  induction t generalizing inRun with
  | nil => simp [collapse] at h
  | cons d t ih =>
    rw [collapse] at h
    split at h
    · split at h
      · exact ih h
      · exact (List.mem_cons.mp h).elim id ih
    · rename_i hd
      rcases List.mem_cons.mp h with rfl | h
      · exact absurd hc hd
      · exact ih h

theorem feed_notMem_featureLabel (stem : Text) : '\n' ∉ featureLabel stem := by
  intro h
  simp only [featureLabel] at h
  split at h
  · have hblank := eq_blank_of_mem_collapse ((Text.trim_sublist _).mem h) (by decide)
    exact absurd hblank (by decide)
  · exact absurd h (by decide)

end Header

namespace HeaderSettings

def insets (settings : HeaderSettings) (path name : Text) (metadata : Metadata) : List Text :=
  let (kind, stem) := settings.classify name
  [ settings.year, settings.holder, settings.marker, settings.license, path, metadata.component,
    usageLine settings kind (Header.featureLabel stem) metadata, metadata.notes ]

variable {settings : HeaderSettings} {mark : Text}

theorem marked_comment (hfeed : '\n' ∉ mark) (t : Text) :
    Text.Marked mark (mark ++ ' ' :: t) ↔ Text.Continues mark t := by
  rw [Text.marked_append hfeed]
  have hfront : '\n' ∉ [' '] := by decide
  exact Text.continues_append hfront

theorem continues_summaryLine (hdot : '.' ∉ mark) (hblank : ' ' ∉ mark) (kind : FileKind)
    {feature : Text} (hfeature : '\n' ∉ feature) (component : Text) :
    Text.Continues mark (summaryLine kind feature component) ↔ Text.Continues mark component := by
  have hwords {t : Text} (h : t.Shown) : '\n' ∉ t := Text.notMem_of_control (by decide) h
  have hfront {a b : Text} (ha : a.Shown) (hb : b.Shown) : '\n' ∉ a ++ feature ++ b := by
    simp [hwords ha, hwords hb, hfeature]
  cases kind with
  | benchmark =>
    exact Text.continues_between hdot (by decide) (hfront (by decide) (by decide)) (by decide)
  | test =>
    have hback : '\n' ∉ "remains reliable.".toList := hwords (by decide)
    exact Text.continues_between hblank (by decide) (hfront (by decide) (by decide)) hback
  | production =>
    exact Text.continues_between hdot (by decide) (hfront (by decide) (by decide)) (by decide)

theorem continues_copyright (hblank : ' ' ∉ mark) (year holder : Text) :
    Text.Continues mark ("Copyright © ".toList ++ year ++ ' ' :: holder) ↔
      Text.Continues mark year ∧ Text.Continues mark holder := by
  rw [Text.continues_append_cons hblank (by decide), Text.continues_append (by decide)]

theorem continues_license (hcolon : ':' ∉ mark) (marker license : Text) :
    Text.Continues mark (marker ++ ": ".toList ++ license) ↔
      Text.Continues mark marker ∧ Text.Continues mark license := by
  have hcut : marker ++ ": ".toList ++ license = marker ++ ':' :: ([' '] ++ license) := by simp
  rw [hcut, Text.continues_append_cons hcolon (by decide), Text.continues_append (by decide)]

/-- A header is comments only if and only if no text that is set into it goes on outside of them. -/
theorem marked_header_iff (hfeed : '\n' ∉ settings.commentMark)
    (hblank : ' ' ∉ settings.commentMark) (hcolon : ':' ∉ settings.commentMark)
    (hdot : '.' ∉ settings.commentMark) (path name : Text) (metadata : Metadata) :
    (∀ line ∈ settings.header path name metadata, Text.Marked settings.commentMark line) ↔
      ∀ t ∈ settings.insets path name metadata, Text.Continues settings.commentMark t := by
  have hfeature := Header.feed_notMem_featureLabel (settings.classify name).2
  have hseparator : Text.Marked settings.commentMark settings.commentMark :=
    (Text.marked_of_notMem hfeed).mpr List.prefix_rfl
  have hlabel (label t : Text) (h : '\n' ∉ label) :
      Text.Marked settings.commentMark (settings.commentMark ++ ' ' :: (label ++ t)) ↔
        Text.Continues settings.commentMark t := by
    rw [marked_comment hfeed, Text.continues_append h]
  have hpath := hlabel "File: ".toList path (by decide)
  have hsummary := hlabel "Summary: ".toList (summaryLine (settings.classify name).1
    (Header.featureLabel (settings.classify name).2) metadata.component) (by decide)
  have husage := hlabel "Usage: ".toList (usageLine settings (settings.classify name).1
    (Header.featureLabel (settings.classify name).2) metadata) (by decide)
  have hnotes := hlabel "Notes: ".toList metadata.notes (by decide)
  rw [continues_summaryLine hdot hblank _ hfeature] at hsummary
  simp only [header, insets, List.forall_mem_cons, List.not_mem_nil, IsEmpty.forall_iff,
    implies_true, hpath, hsummary, husage, hnotes, hseparator, marked_comment hfeed,
    continues_copyright hblank, continues_license hcolon, true_and, and_true, and_assoc]

end HeaderSettings

end HeaderStamp
