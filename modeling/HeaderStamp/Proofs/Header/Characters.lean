import HeaderStamp.Header.Block
import HeaderStamp.Proofs.Text.Pieces
import Mathlib.Tactic.Push

namespace HeaderStamp

def Text.Shown (t : Text) : Prop := ∀ c ∈ t, 32 ≤ c.toNat

instance (t : Text) : Decidable t.Shown :=
  decidable_of_iff (t.all fun c ↦ 32 ≤ c.toNat) (by simp [Text.Shown])

theorem Text.notMem_of_control {c : Char} (hc : c.toNat < 32) {t : Text} (h : t.Shown) : c ∉ t :=
  fun hm ↦ absurd (h c hm) (Nat.not_le.mpr hc)

namespace Header

theorem mem_collapse {inRun : Bool} {t : Text} {c : Char} (h : c ∈ collapse inRun t) :
    c = ' ' ∨ c ∈ t := by
  induction t generalizing inRun with
  | nil => simp [collapse] at h
  | cons d t ih =>
    rw [collapse] at h
    split at h
    · split at h
      · exact (ih h).imp_right (List.mem_cons_of_mem d)
      · exact (List.mem_cons.mp h).elim .inl fun h ↦ (ih h).imp_right (List.mem_cons_of_mem d)
    · rcases List.mem_cons.mp h with rfl | h
      · exact .inr List.mem_cons_self
      · exact (ih h).imp_right (List.mem_cons_of_mem d)

theorem mem_of_control_of_mem_featureLabel {c : Char} (hc : c.toNat < 32) {stem : Text}
    (h : c ∈ featureLabel stem) : c ∈ stem := by
  simp only [featureLabel] at h
  split at h
  · rcases mem_collapse ((Text.trim_sublist _).mem h) with rfl | h
    · exact absurd hc (by decide)
    · exact h
  · exact absurd h (Text.notMem_of_control hc (by decide))

theorem mem_fillFrom {feature component : Text} {skip : Nat} {t : Text} {c : Char}
    (h : c ∈ fillFrom feature component skip t) : c ∈ t ∨ c ∈ feature ∨ c ∈ component := by
  induction t generalizing skip with
  | nil => simp [fillFrom] at h
  | cons d t ih =>
    cases skip with
    | succ skip => exact (ih h).imp_left (List.mem_cons_of_mem d)
    | zero =>
      rw [fillFrom] at h
      split at h
      · exact (List.mem_append.mp h).elim (fun h ↦ .inr (.inl h))
          fun h ↦ (ih h).imp_left (List.mem_cons_of_mem d)
      · split at h
        · exact (List.mem_append.mp h).elim (fun h ↦ .inr (.inr h))
            fun h ↦ (ih h).imp_left (List.mem_cons_of_mem d)
        · rcases List.mem_cons.mp h with rfl | h
          · exact .inl List.mem_cons_self
          · exact (ih h).imp_left (List.mem_cons_of_mem d)

end Header

def Metadata.texts (metadata : Metadata) : List Text :=
  [metadata.component, metadata.usage, metadata.notes]

namespace HeaderSettings

def texts (settings : HeaderSettings) : List Text :=
  [settings.commentMark, settings.year, settings.holder, settings.marker, settings.license,
    settings.benchUsage, settings.testUsage]

theorem mem_of_mem_stripFirst? {suffixes : List Text} {name stem : Text}
    (h : stripFirst? suffixes name = some stem) {c : Char} (hc : c ∈ stem) : c ∈ name := by
  obtain ⟨suffix, _, hs⟩ := List.exists_of_findSome?_eq_some h
  rw [Text.dropEnding?_eq_some_iff.mp hs]
  exact List.mem_append_left suffix hc

theorem mem_of_mem_classify {settings : HeaderSettings} {name : Text} {c : Char}
    (h : c ∈ (settings.classify name).2) : c ∈ name := by
  rw [classify] at h
  split at h
  · next hs => exact mem_of_mem_stripFirst? hs h
  · split at h
    · next hs => exact mem_of_mem_stripFirst? hs h
    · exact h

theorem notMem_summaryLine {c : Char} (hc : c.toNat < 32) (kind : FileKind)
    {feature component : Text} (hf : c ∉ feature) (hm : c ∉ component) :
    c ∉ summaryLine kind feature component := by
  have hwords {t : Text} (h : t.Shown) : c ∉ t := Text.notMem_of_control hc h
  unfold summaryLine
  cases kind <;> simp only [List.mem_append, not_or] <;>
    exact ⟨⟨⟨⟨hwords (by decide), hf⟩, hwords (by decide)⟩, hm⟩, hwords (by decide)⟩

theorem notMem_usageLine {c : Char} {settings : HeaderSettings} (hbench : c ∉ settings.benchUsage)
    (htest : c ∉ settings.testUsage) (kind : FileKind) {feature : Text} (hf : c ∉ feature)
    {metadata : Metadata} (hm : c ∉ metadata.component) (hu : c ∉ metadata.usage) :
    c ∉ usageLine settings kind feature metadata := by
  cases kind with
  | benchmark => exact hbench
  | test => exact htest
  | production =>
    intro h
    rcases Header.mem_fillFrom h with h | h | h
    · exact hu h
    · exact hf h
    · exact hm h

/-- A control character in a header stands in one of the texts that the header is made of. -/
theorem exists_mem_of_mem_header {c : Char} (hc : c.toNat < 32) {settings : HeaderSettings}
    {path name : Text} {metadata : Metadata} {line : Text}
    (hline : line ∈ settings.header path name metadata) (h : c ∈ line) :
    ∃ t ∈ path :: name :: (settings.texts ++ metadata.texts), c ∈ t := by
  by_contra hno
  push Not at hno
  have hne (d : Char) (hd : 32 ≤ d.toNat) : c ≠ d := by
    rintro rfl
    omega
  have hfeature : c ∉ Header.featureLabel (settings.classify name).2 := fun hf ↦
    hno name (by simp) (mem_of_mem_classify (Header.mem_of_control_of_mem_featureLabel hc hf))
  have hcomponent : c ∉ metadata.component := hno _ (by simp [Metadata.texts])
  have hsummary := notMem_summaryLine hc (settings.classify name).1 hfeature hcomponent
  have husage := notMem_usageLine (hno settings.benchUsage (by simp [texts]))
    (hno settings.testUsage (by simp [texts])) (settings.classify name).1 hfeature hcomponent
    (hno _ (by simp [Metadata.texts]))
  simp only [texts, Metadata.texts, List.mem_cons, List.mem_append, List.not_mem_nil, or_false,
    or_imp, forall_and, forall_eq] at hno
  simp only [header, List.mem_cons, List.not_mem_nil, or_false] at hline
  rcases hline with rfl | rfl | rfl | rfl | rfl | rfl | rfl <;>
    simp [hne, hno, hsummary, husage] at h

end HeaderSettings

end HeaderStamp
