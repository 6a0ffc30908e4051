import HeaderStamp.Proofs.Header.Comments
import Mathlib.Data.List.Chain
import Mathlib.Data.List.DropRight

namespace HeaderStamp

namespace Text

theorem trimEnd_append {tail : Text} (htail : ∀ c ∈ tail, isSpace c = true) (t : Text) :
    trimEnd (t ++ tail) = trimEnd t := by
  rw [trimEnd, List.reverse_append, List.dropWhile_append_of_pos (by simpa using htail), trimEnd]

theorem trimEnd_of_getLast? {t : Text} (h : ∀ c ∈ t.getLast?, isSpace c = false) :
    trimEnd t = t := by
  change t.rdropWhile isSpace = t
  rw [List.rdropWhile_eq_self_iff]
  intro hne
  rw [h _ (List.getLast_mem_getLast? hne)]
  exact Bool.false_ne_true

theorem trimStart_of_head? {t : Text} (h : ∀ c ∈ t.head?, isSpace c = false) :
    trimStart t = t := by
  cases t with
  | nil => rfl
  | cons c t => rw [trimStart, List.dropWhile_cons_of_neg (by rw [h c rfl]; exact Bool.false_ne_true)]

theorem join_singleton (separator piece : Text) : join separator [piece] = piece := by
  simp [join]

theorem join_blank_cons_cons (piece next : Text) (pieces : List Text) :
    join [' '] (piece :: next :: pieces) = piece ++ ' ' :: join [' '] (next :: pieces) := by
  rw [join, List.intercalate_cons_cons, List.append_assoc]
  rfl

end Text

namespace Header

def words (t : Text) : List Text := (t.splitOnP isSeparator).filter (· ≠ [])

def IsGap (t : Text) : Prop := ∀ c ∈ t, isSeparator c = true

structure IsWord (t : Text) : Prop where
  ne_nil : t ≠ []
  isSeparator_eq : ∀ c ∈ t, isSeparator c = false

/-- A text taken apart into its runs of other characters than separators. A run goes as far as it
can: whatever follows it begins with a separator. -/
inductive Runs : Text → List Text → Prop
  | gap {gap : Text} : IsGap gap → Runs gap []
  | word {gap word rest : Text} {more : List Text} : IsGap gap → IsWord word →
      (∀ c ∈ rest.head?, isSeparator c = true) → Runs rest more →
      Runs (gap ++ (word ++ rest)) (word :: more)

structure Phrase (t : Text) : Prop where
  ne_nil : t ≠ []
  head?_ne : t.head? ≠ some ' '
  getLast?_ne : t.getLast? ≠ some ' '
  not_doubled : ¬ [' ', ' '] <:+: t
  eq_blank : ∀ c ∈ t, isSeparator c = true → c = ' '

variable {t gap word rest : Text} {runs : List Text} {c : Char}

theorem isSeparator_of_isSpace (h : Text.isSpace c = true) : isSeparator c = true := by
  simp [isSeparator, h]

theorem isSpace_of_isSeparator_eq (h : isSeparator c = false) : Text.isSpace c = false := by
  by_contra hspace
  rw [isSeparator_of_isSpace (by simpa using hspace)] at h
  cases h

theorem words_of_isGap (h : IsGap gap) (t : Text) : words (gap ++ t) = words t := by
  induction gap with
  | nil => rfl
  | cons c gap ih =>
    obtain ⟨hc, hgap⟩ := List.forall_mem_cons.mp h
    rw [List.cons_append, words, List.splitOnP_cons_eq_if_modifyHead, if_pos hc,
      List.filter_cons_of_neg (by simp)]
    exact ih hgap

theorem words_of_isWord (hword : IsWord word) (hrest : ∀ c ∈ rest.head?, isSeparator c = true) :
    words (word ++ rest) = word :: words rest := by
  have hkeep (more : List Text) :
      (word :: more).filter (· ≠ []) = word :: more.filter (· ≠ []) :=
    List.filter_cons_of_pos (by simpa using hword.ne_nil)
  cases rest with
  | nil =>
    rw [List.append_nil, words, List.splitOnP_eq_singleton hword.isSeparator_eq, hkeep]
    rfl
  | cons c rest =>
    have hc := hrest c rfl
    rw [words, List.splitOnP_append_cons_of_forall_mem hword.isSeparator_eq c hc, hkeep, words,
      List.splitOnP_cons_eq_if_modifyHead, if_pos hc, List.filter_cons_of_neg (by simp)]

theorem Runs.words_eq (h : Runs t runs) : words t = runs := by
  induction h with
  | @gap gap hgap =>
    have hnil := words_of_isGap hgap []
    rw [List.append_nil] at hnil
    exact hnil
  | word hgap hword hrest _ ih => rw [words_of_isGap hgap, words_of_isWord hword hrest, ih]

theorem exists_runs (t : Text) : ∃ runs, Runs t runs := by
  induction hn : t.length using Nat.strongRecOn generalizing t with
  | _ n ih =>
    have hgap : IsGap (t.takeWhile isSeparator) := fun c hc ↦ List.mem_takeWhile_imp hc
    have ht := List.takeWhile_append_dropWhile (p := isSeparator) (l := t)
    have hhead := List.head?_dropWhile_not isSeparator t
    cases hbehind : t.dropWhile isSeparator with
    | nil =>
      rw [hbehind, List.append_nil] at ht
      exact ⟨[], .gap (ht ▸ hgap)⟩
    | cons c behind =>
      rw [hbehind] at ht hhead
      have hword : IsWord ((c :: behind).takeWhile fun d ↦ !isSeparator d) := by
        constructor
        · rw [List.takeWhile_cons_of_pos (by simpa using hhead)]
          exact List.cons_ne_nil _ _
        · intro d hd
          simpa using List.mem_takeWhile_imp hd
      have hcut := List.takeWhile_append_dropWhile (p := fun d ↦ !isSeparator d) (l := c :: behind)
      have hrest := List.head?_dropWhile_not (fun d ↦ !isSeparator d) (c :: behind)
      generalize hrun : (c :: behind).takeWhile (fun d ↦ !isSeparator d) = run at hword hcut
      generalize (c :: behind).dropWhile (fun d ↦ !isSeparator d) = rest at hcut hrest
      have hlength : rest.length < n := by
        have hpos := List.length_pos_iff.mpr hword.ne_nil
        have hall := congrArg List.length ht
        rw [← hcut] at hall
        simp only [List.length_append] at hall
        omega
      obtain ⟨more, hmore⟩ := ih rest.length hlength rest rfl
      refine ⟨run :: more, ?_⟩
      rw [← ht, ← hcut]
      refine .word hgap hword ?_ hmore
      intro d hd
      rw [Option.mem_def.mp hd] at hrest
      simpa using hrest

/-- The words are the runs, and there is no other way to take the text apart. -/
theorem runs_iff : Runs t runs ↔ runs = words t := by
  constructor
  · exact fun h ↦ h.words_eq.symm
  · rintro rfl
    obtain ⟨runs, h⟩ := exists_runs t
    rw [h.words_eq]
    exact h

theorem runs_words (t : Text) : Runs t (words t) := runs_iff.mpr rfl

theorem Runs.isWord (h : Runs t runs) : ∀ word ∈ runs, IsWord word := by
  induction h with
  | gap => simp
  | word _ hword _ _ ih => exact List.forall_mem_cons.mpr ⟨hword, ih⟩

theorem Runs.exists_mem_iff (h : Runs t runs) (hc : isSeparator c = false) :
    (∃ word ∈ runs, c ∈ word) ↔ c ∈ t := by
  have hgap {gap : Text} (hgap : IsGap gap) : c ∉ gap := by
    intro hmem
    rw [hgap c hmem] at hc
    cases hc
  induction h with
  | gap h => simpa using hgap h
  | word h _ _ _ ih => simp [hgap h, ih]

section Join

variable {pieces : List Text}

theorem join_ne_nil (hword : IsWord word) (more : List Text) :
    Text.join [' '] (word :: more) ≠ [] := by
  cases more with
  | nil =>
    rw [Text.join_singleton]
    exact hword.ne_nil
  | cons next more => simp [Text.join_blank_cons_cons]

theorem isSeparator_head?_join (h : ∀ word ∈ pieces, IsWord word) :
    ∀ c ∈ (Text.join [' '] pieces).head?, isSeparator c = false := by
  cases pieces with
  | nil => simp [Text.join]
  | cons word more =>
    have hword := h word List.mem_cons_self
    obtain ⟨c, t, rfl⟩ := List.exists_cons_of_ne_nil hword.ne_nil
    have hc := hword.isSeparator_eq c List.mem_cons_self
    cases more with
    | nil => simpa [Text.join_singleton] using hc
    | cons next more => simpa [Text.join_blank_cons_cons] using hc

theorem isSeparator_getLast?_join (h : ∀ word ∈ pieces, IsWord word) :
    ∀ c ∈ (Text.join [' '] pieces).getLast?, isSeparator c = false := by
  induction pieces with
  | nil => simp [Text.join]
  | cons word more ih =>
    obtain ⟨hword, hmore⟩ := List.forall_mem_cons.mp h
    cases more with
    | nil =>
      rw [Text.join_singleton]
      exact fun c hc ↦ hword.isSeparator_eq c (List.mem_of_getLast? hc)
    | cons next more =>
      have hne := join_ne_nil (hmore next List.mem_cons_self) more
      rw [Text.join_blank_cons_cons, List.append_cons, List.getLast?_append_of_ne_nil _ hne]
      exact ih hmore

theorem not_doubled_join (h : ∀ word ∈ pieces, IsWord word) :
    ¬ [' ', ' '] <:+: Text.join [' '] pieces := by
  have hblank {c : Char} (hc : isSeparator c = false) : c ≠ ' ' := by
    rintro rfl
    cases hc
  have hwithin {word : Text} (hword : IsWord word) :
      word.IsChain fun a b ↦ a ≠ ' ' ∨ b ≠ ' ' := by
    apply List.Pairwise.isChain
    exact List.pairwise_of_forall_mem_list fun a ha b _ ↦ .inl (hblank (hword.isSeparator_eq a ha))
  have hchain : (Text.join [' '] pieces).IsChain fun a b ↦ a ≠ ' ' ∨ b ≠ ' ' := by
    induction pieces with
    | nil => exact .nil
    | cons word more ih =>
      obtain ⟨hword, hmore⟩ := List.forall_mem_cons.mp h
      cases more with
      | nil =>
        rw [Text.join_singleton]
        exact hwithin hword
      | cons next more =>
        rw [Text.join_blank_cons_cons, List.isChain_append]
        refine ⟨hwithin hword, ?_, ?_⟩
        · rw [List.isChain_cons]
          exact ⟨fun c hc ↦ .inr (hblank (isSeparator_head?_join hmore c hc)), ih hmore⟩
        · exact fun c hc d _ ↦ .inl (hblank (hword.isSeparator_eq c (List.mem_of_getLast? hc)))
  intro hinfix
  have hpair := hchain.infix hinfix
  simp at hpair

theorem words_join (h : ∀ word ∈ pieces, IsWord word) :
    words (Text.join [' '] pieces) = pieces := by
  induction pieces with
  | nil => rfl
  | cons word more ih =>
    obtain ⟨hword, hmore⟩ := List.forall_mem_cons.mp h
    have hblank : isSeparator ' ' = true := by decide
    cases more with
    | nil =>
      have hsingle : words (word ++ []) = word :: words [] := words_of_isWord hword (by simp)
      rw [List.append_nil] at hsingle
      rw [Text.join_singleton, hsingle]
      rfl
    | cons next more =>
      have hgap : IsGap [' '] := by simpa [IsGap] using hblank
      rw [Text.join_blank_cons_cons, words_of_isWord hword (by simpa using hblank)]
      exact congrArg (word :: ·) ((words_of_isGap hgap _).trans (ih hmore))

theorem phrase_join (hne : pieces ≠ []) (h : ∀ word ∈ pieces, IsWord word) :
    Phrase (Text.join [' '] pieces) where
  ne_nil := by
    obtain ⟨word, more, rfl⟩ := List.exists_cons_of_ne_nil hne
    exact join_ne_nil (h word List.mem_cons_self) more
  head?_ne hhead := by cases isSeparator_head?_join h _ hhead
  getLast?_ne hlast := by cases isSeparator_getLast?_join h _ hlast
  not_doubled := not_doubled_join h
  eq_blank c hc hseparator := by
    rcases Text.mem_of_mem_join hc with hc | ⟨word, hword, hc⟩
    · exact List.mem_singleton.mp hc
    · rw [(h word hword).isSeparator_eq c hc] at hseparator
      cases hseparator

end Join

theorem collapse_of_forall (hword : ∀ c ∈ word, isSeparator c = false) (rest : Text) :
    collapse false (word ++ rest) = word ++ collapse false rest := by
  induction word with
  | nil => rfl
  | cons c word ih =>
    obtain ⟨hc, hmore⟩ := List.forall_mem_cons.mp hword
    rw [List.cons_append, collapse, if_neg (by simp [hc]), ih hmore, List.cons_append]

theorem collapse_of_isWord (hword : IsWord word) (inRun : Bool) (rest : Text) :
    collapse inRun (word ++ rest) = word ++ collapse false rest := by
  obtain ⟨c, word, rfl⟩ := List.exists_cons_of_ne_nil hword.ne_nil
  obtain ⟨hc, hmore⟩ := List.forall_mem_cons.mp hword.isSeparator_eq
  rw [List.cons_append, collapse, if_neg (by simp [hc]), collapse_of_forall hmore,
    List.cons_append]

theorem collapse_of_isGap (hgap : IsGap gap) (rest : Text) :
    collapse true (gap ++ rest) = collapse true rest := by
  induction gap with
  | nil => rfl
  | cons c gap ih =>
    obtain ⟨hc, hmore⟩ := List.forall_mem_cons.mp hgap
    rw [List.cons_append, collapse, if_pos hc, if_pos rfl, ih hmore]

theorem trimStart_collapse (t : Text) :
    Text.trimStart (collapse false t) = Text.trimStart (collapse true t) := by
  cases t with
  | nil => rfl
  | cons c t =>
    rw [collapse, collapse]
    split
    · rfl
    · rfl

/-- Where a gap is under way, nothing but the words is kept, and perhaps a blank behind them. -/
theorem Runs.exists_collapse_eq (h : Runs t runs) :
    ∃ tail, (∀ c ∈ tail, Text.isSpace c = true) ∧ (runs = [] → tail = []) ∧
      collapse true t = Text.join [' '] runs ++ tail := by
  induction h with
  | @gap gap hgap =>
    have hnil := collapse_of_isGap hgap []
    rw [List.append_nil] at hnil
    exact ⟨[], by simp, fun _ ↦ rfl, hnil⟩
  | @word gap word rest more hgap hword hrest hruns ih =>
    rw [collapse_of_isGap hgap, collapse_of_isWord hword]
    cases rest with
    | nil =>
      obtain rfl : more = [] := hruns.words_eq.symm
      exact ⟨[], by simp, fun _ ↦ rfl, by rw [Text.join_singleton]; rfl⟩
    | cons c rest =>
      have hc := hrest c rfl
      have hblank : collapse false (c :: rest) = ' ' :: collapse true (c :: rest) := by
        rw [collapse, collapse, if_pos hc, if_pos hc]
        rfl
      obtain ⟨tail, htail, hnil, hcollapse⟩ := ih
      rw [hblank, hcollapse]
      cases more with
      | nil =>
        rw [hnil rfl, Text.join_singleton]
        exact ⟨[' '], by simp; decide, by simp, rfl⟩
      | cons next more =>
        refine ⟨tail, htail, by simp, ?_⟩
        rw [Text.join_blank_cons_cons, List.append_assoc, List.cons_append]

theorem trim_collapse (t : Text) :
    Text.trim (collapse false t) = Text.join [' '] (words t) := by
  obtain ⟨tail, htail, hnil, hcollapse⟩ := (runs_words t).exists_collapse_eq
  have hwords := (runs_words t).isWord
  have hlast := fun c hc ↦ isSpace_of_isSeparator_eq (isSeparator_getLast?_join hwords c hc)
  have hhead : ∀ c ∈ (Text.join [' '] (words t) ++ tail).head?, Text.isSpace c = false := by
    cases hruns : words t with
    | nil => simp [hnil hruns, Text.join]
    | cons word more =>
      rw [hruns] at hwords
      have hne := join_ne_nil (hwords word List.mem_cons_self) more
      rw [List.head?_append_of_ne_nil _ hne]
      exact fun c hc ↦ isSpace_of_isSeparator_eq (isSeparator_head?_join hwords c hc)
  rw [Text.trim, trimStart_collapse, hcollapse, Text.trimStart_of_head? hhead,
    Text.trimEnd_append htail, Text.trimEnd_of_getLast? hlast]

/-- Whitespace holds no letters and no digits, so these part no words. -/
theorem isAlphanumeric_of_isSpace (h : Text.isSpace c = true) : Text.isAlphanumeric c = false := by
  have hwide : ∀ n ∈ [0x85, 0xA0, 0x1680, 0x2000, 0x2001, 0x2002, 0x2003, 0x2004, 0x2005, 0x2006,
      0x2007, 0x2008, 0x2009, 0x200A, 0x2028, 0x2029, 0x202F, 0x205F, 0x3000],
      Text.inRanges Text.alphanumericRanges n = false := by
    decide +kernel
  simp only [Text.isSpace, Bool.or_eq_true, Bool.and_eq_true, decide_eq_true_eq, beq_iff_eq] at h
  by_cases hsmall : c.toNat < 128
  · simp [Text.isAlphanumeric, hsmall]
    omega
  · rw [Text.isAlphanumeric, if_neg hsmall]
    apply hwide
    simp only [List.mem_cons, List.not_mem_nil, or_false]
    omega

theorem isSeparator_of_isAlphanumeric (h : Text.isAlphanumeric c = true) :
    isSeparator c = false := by
  have hspace : Text.isSpace c = false := by
    by_contra hspace
    rw [isAlphanumeric_of_isSpace (by simpa using hspace)] at h
    cases h
  have hunderscore : c ≠ '_' := by
    rintro rfl
    cases h
  have hhyphen : c ≠ '-' := by
    rintro rfl
    cases h
  simp [isSeparator, hunderscore, hhyphen, hspace]

theorem any_join_words (t : Text) :
    (Text.join [' '] (words t)).any Text.isAlphanumeric = t.any Text.isAlphanumeric := by
  rw [Bool.eq_iff_iff, List.any_eq_true, List.any_eq_true]
  constructor
  · rintro ⟨c, hc, h⟩
    have hword := isSeparator_of_isAlphanumeric h
    rcases Text.mem_of_mem_join hc with hblank | hmem
    · rw [List.mem_singleton.mp hblank] at h
      cases h
    · exact ⟨c, ((runs_words t).exists_mem_iff hword).mp hmem, h⟩
  · rintro ⟨c, hc, h⟩
    obtain ⟨word, hmem, hc⟩ :=
      ((runs_words t).exists_mem_iff (isSeparator_of_isAlphanumeric h)).mpr hc
    exact ⟨c, Text.mem_join_of_mem hmem hc, h⟩

theorem featureLabel_eq (stem : Text) :
    featureLabel stem =
      if stem.any Text.isAlphanumeric then Text.join [' '] (words stem) else fallbackFeature := by
  simp only [featureLabel, trim_collapse, any_join_words]

theorem phrase_fallback : Phrase fallbackFeature := by
  have hletters : fallbackFeature.all (fun c ↦ !isSeparator c) = true := by decide
  have hword : IsWord fallbackFeature :=
    ⟨by decide, fun c hc ↦ by simpa using List.all_eq_true.mp hletters c hc⟩
  have hphrase := phrase_join (List.cons_ne_nil fallbackFeature [])
    (List.forall_mem_singleton.mpr hword)
  rwa [Text.join_singleton] at hphrase

/-- The label of a name is the list of its words, if it holds a letter or a digit at all. So it is
written like a phrase, it depends on the words alone, and its own label is the same. -/
theorem featureLabel_words (stem : Text) :
    (∀ runs, Runs stem runs ↔ runs = words stem) ∧
      featureLabel stem =
        (if stem.any Text.isAlphanumeric then Text.join [' '] (words stem) else "main".toList) ∧
      Phrase (featureLabel stem) ∧
      (∀ other, words other = words stem → featureLabel other = featureLabel stem) ∧
      featureLabel (featureLabel stem) = featureLabel stem := by
  have hwords := (runs_words stem).isWord
  refine ⟨fun _ ↦ runs_iff, featureLabel_eq stem, ?_, ?_, ?_⟩
  · rw [featureLabel_eq]
    split
    · next hany =>
      apply phrase_join _ hwords
      intro hnil
      rw [← any_join_words, hnil] at hany
      cases hany
    · exact phrase_fallback
  · intro other hother
    rw [featureLabel_eq, featureLabel_eq, ← any_join_words, ← any_join_words stem, hother]
  · rw [featureLabel_eq stem]
    split
    · next hany => rw [featureLabel_eq, words_join hwords, any_join_words, if_pos hany]
    · decide +kernel

theorem featureLabel_words_of_mixed_runs :
    let stem := "__\u3000zoom-\t_Ünit--!\r\n".toList
    let other := "zoom Ünit_!".toList
    words other = words stem ∧ featureLabel stem = "zoom Ünit !".toList ∧
      featureLabel other = featureLabel stem := by
  intro stem other
  have hwords : words other = words stem := by decide +kernel
  exact ⟨hwords, by decide +kernel, (featureLabel_words stem).2.2.2.1 other hwords⟩

end Header

end HeaderStamp
