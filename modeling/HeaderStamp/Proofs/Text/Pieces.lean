import HeaderStamp.Paths
import Mathlib.Data.List.Infix

namespace HeaderStamp

namespace Text

theorem dropStart?_eq_some_iff {start t rest : Text} :
    dropStart? start t = some rest ↔ t = start ++ rest := by
  induction start generalizing t with
  | nil => simp [dropStart?, eq_comm]
  | cons a start ih =>
    cases t with
    | nil => simp [dropStart?]
    | cons b t =>
      by_cases h : a = b
      · simp [dropStart?, h, ih]
      · simp [dropStart?, h, Ne.symm h]

theorem dropEnding?_eq_some_iff {ending t front : Text} :
    dropEnding? ending t = some front ↔ t = front ++ ending := by
  simp only [dropEnding?, Option.map_eq_some_iff, dropStart?_eq_some_iff]
  constructor
  · rintro ⟨rest, hrest, rfl⟩
    rw [← List.reverse_reverse t, hrest]
    simp
  · rintro rfl
    exact ⟨front.reverse, by simp, by simp⟩

theorem split_of_notMem {c : Char} {t : Text} (h : c ∉ t) : split c t = [t] := by
  induction t with
  | nil => rfl
  | cons d t ih =>
    rw [List.mem_cons, not_or] at h
    rw [split, if_neg (Ne.symm h.1), ih h.2]

theorem split_append_cons {c : Char} {piece : Text} (h : c ∉ piece) (rest : Text) :
    split c (piece ++ c :: rest) = piece :: split c rest := by
  induction piece with
  | nil => simp [split]
  | cons d piece ih =>
    rw [List.mem_cons, not_or] at h
    rw [List.cons_append, split, if_neg (Ne.symm h.1), ih h.2]

theorem exists_split (c : Char) (t : Text) : ∃ piece pieces, split c t = piece :: pieces := by
  induction t with
  | nil => exact ⟨[], [], rfl⟩
  | cons d t ih =>
    obtain ⟨piece, pieces, h⟩ := ih
    rw [split, h]
    split
    · exact ⟨_, _, rfl⟩
    · exact ⟨_, _, rfl⟩

/-- A text is a piece without the separator, or such a piece, a separator and a shorter text. -/
@[elab_as_elim]
theorem pieceInduction (c : Char) {motive : Text → Prop}
    (last : ∀ piece, c ∉ piece → motive piece)
    (piece : ∀ piece rest, c ∉ piece → motive rest → motive (piece ++ c :: rest)) (t : Text) :
    motive t := by
  induction hn : t.length using Nat.strongRecOn generalizing t with
  | _ n ih =>
    by_cases h : c ∈ t
    · obtain ⟨front, rest, rfl, hfront⟩ := List.eq_append_cons_of_mem h
      have hlength : rest.length < n := by
        rw [← hn, List.length_append, List.length_cons]
        omega
      exact piece front rest hfront (ih rest.length hlength rest rfl)
    · exact last t h

theorem split_append_separator (c : Char) (t u : Text) :
    split c (t ++ c :: u) = split c t ++ split c u := by
  induction t with
  | nil => simp [split]
  | cons d t ih =>
    obtain ⟨piece, pieces, hpieces⟩ := exists_split c t
    rw [List.cons_append, split, split, ih, hpieces]
    split <;> rfl

theorem split_join (c : Char) {pieces : List Text} (h : pieces ≠ []) :
    split c (join [c] pieces) = pieces.flatMap (split c) := by
  induction pieces with
  | nil => exact absurd rfl h
  | cons piece pieces ih =>
    cases pieces with
    | nil => simp [join]
    | cons next pieces =>
      have ih := ih (List.cons_ne_nil _ _)
      rw [join] at ih ⊢
      rw [List.intercalate_cons_cons, List.append_assoc, List.singleton_append,
        split_append_separator, ih, ← List.flatMap_cons]

theorem split_join_of_notMem {c : Char} {pieces : List Text} (hne : pieces ≠ [])
    (h : ∀ piece ∈ pieces, c ∉ piece) : split c (join [c] pieces) = pieces := by
  have hpieces : ∀ piece ∈ pieces, split c piece = [piece] :=
    fun piece hpiece ↦ split_of_notMem (h piece hpiece)
  rw [split_join c hne, List.flatMap_congr hpieces, List.flatMap_singleton']

theorem split_ne_nil (c : Char) (t : Text) : split c t ≠ [] := by
  obtain ⟨piece, pieces, h⟩ := exists_split c t
  rw [h]
  exact List.cons_ne_nil _ _

theorem notMem_of_mem_split {c : Char} {t piece : Text} (h : piece ∈ split c t) : c ∉ piece := by
  induction t using pieceInduction c with
  | last front hfront =>
    rw [split_of_notMem hfront, List.mem_singleton] at h
    exact h ▸ hfront
  | piece front rest hfront ih =>
    rw [split_append_cons hfront] at h
    rcases List.mem_cons.mp h with rfl | h
    · exact hfront
    · exact ih h

theorem join_split (c : Char) (t : Text) : join [c] (split c t) = t := by
  induction t using pieceInduction c with
  | last piece hpiece =>
    rw [split_of_notMem hpiece]
    simp [join]
  | piece piece rest hpiece ih =>
    obtain ⟨first, more, hfirst⟩ := exists_split c rest
    rw [join, hfirst] at ih
    rw [split_append_cons hpiece, hfirst, join, List.intercalate_cons_cons, ih]
    simp

theorem split_injective (c : Char) : Function.Injective (split c) :=
  Function.LeftInverse.injective (join_split c)

/-- The pieces of a text lead those of another one that is the same or goes on with a separator. -/
theorem split_prefix_iff {c : Char} {front t : Text} :
    split c front <+: split c t ↔ t = front ∨ front ++ [c] <+: t := by
  constructor
  · intro h
    obtain ⟨more, hmore⟩ := h
    by_cases hnil : more = []
    · rw [hnil, List.append_nil] at hmore
      exact .inl (split_injective c hmore).symm
    · have hpieces : ∀ piece ∈ more, c ∉ piece := by
        intro piece hpiece
        apply notMem_of_mem_split (t := t)
        rw [← hmore]
        exact List.mem_append_right _ hpiece
      refine .inr ⟨join [c] more, split_injective c ?_⟩
      rw [List.append_assoc, List.singleton_append, split_append_separator,
        split_join_of_notMem hnil hpieces, hmore]
  · intro h
    rcases h with rfl | ⟨rest, rfl⟩
    · exact List.prefix_rfl
    · rw [List.append_assoc, List.singleton_append, split_append_separator]
      exact List.prefix_append _ _

section Measure

variable {c : Char} {size : Text → Nat} {a b t : Text}

theorem size_lt_of_length_split_lt (hsize : ∀ front rest, size front < size (front ++ c :: rest))
    (ha : split c a <+: split c t) (hb : split c b <+: split c t)
    (h : (split c a).length < (split c b).length) : size a < size b := by
  rcases split_prefix_iff.mp (List.prefix_of_prefix_length_le ha hb h.le) with rfl | ⟨rest, rfl⟩
  · omega
  · simpa using hsize a rest

/-- Of two texts whose pieces lead the same ones, the longer one is the one with more pieces,
however length is measured. -/
theorem size_lt_iff (hsize : ∀ front rest, size front < size (front ++ c :: rest))
    (ha : split c a <+: split c t) (hb : split c b <+: split c t) :
    size a < size b ↔ (split c a).length < (split c b).length := by
  refine ⟨fun h ↦ ?_, size_lt_of_length_split_lt hsize ha hb⟩
  by_contra hle
  rcases Nat.lt_or_eq_of_le (Nat.le_of_not_lt hle) with hlt | heq
  · have hback := size_lt_of_length_split_lt hsize hb ha hlt
    omega
  · have hsame := (List.prefix_of_prefix_length_le hb ha heq.le).eq_of_length heq
    rw [split_injective c hsame] at h
    omega

end Measure

theorem getLast_split_eq_nil_iff (c : Char) (t : Text) :
    (split c t).getLast (split_ne_nil c t) = [] ↔ t = [] ∨ t.getLast? = some c := by
  induction t using pieceInduction c with
  | last piece hpiece =>
    simp only [split_of_notMem hpiece, List.getLast_singleton]
    exact (or_iff_left fun h ↦ hpiece (List.mem_of_getLast? h)).symm
  | piece piece rest hpiece ih =>
    have hlast : (piece ++ c :: rest).getLast? = some c ↔ rest = [] ∨ rest.getLast? = some c := by
      cases rest <;> simp [List.getLast?_cons_cons]
    simp only [split_append_cons hpiece, List.getLast_cons (split_ne_nil c rest), ih, hlast]
    simp

theorem replaceChar_of_notMem {old : Char} {new t : Text} (h : old ∉ t) :
    replaceChar old new t = t := by
  induction t with
  | nil => rfl
  | cons c t ih =>
    rw [List.mem_cons, not_or] at h
    rw [replaceChar, List.flatMap_cons, if_neg (Ne.symm h.1)]
    exact congrArg (c :: ·) (ih h.2)

theorem replaceChar_append_cons {old : Char} {new front : Text} (h : old ∉ front) (rest : Text) :
    replaceChar old new (front ++ old :: rest) = front ++ (new ++ replaceChar old new rest) := by
  have hfront : replaceChar old new front = front := replaceChar_of_notMem h
  rw [replaceChar] at hfront ⊢
  rw [List.flatMap_append, hfront, List.flatMap_cons, if_pos rfl]
  rfl

theorem split_replaceChar_of_notMem {old new : Char} {piece : Text} (h : new ∉ piece) :
    split new (replaceChar old [new] piece) = split old piece := by
  induction piece using pieceInduction old with
  | last front hfront =>
    rw [replaceChar_of_notMem hfront, split_of_notMem h, split_of_notMem hfront]
  | piece front rest hfront ih =>
    rw [List.mem_append, List.mem_cons, not_or, not_or] at h
    rw [replaceChar_append_cons hfront, List.singleton_append, split_append_cons h.1,
      split_append_cons hfront, ih h.2.2]

theorem split_replaceChar {old new : Char} (hne : new ≠ old) (t : Text) :
    split new (replaceChar old [new] t) = (split new t).flatMap (split old) := by
  induction t using pieceInduction new with
  | last piece hpiece =>
    rw [split_replaceChar_of_notMem hpiece, split_of_notMem hpiece, List.flatMap_singleton]
  | piece piece rest hpiece ih =>
    have hreplace : replaceChar old [new] (piece ++ new :: rest) =
        replaceChar old [new] piece ++ new :: replaceChar old [new] rest := by
      rw [replaceChar, List.flatMap_append, List.flatMap_cons, if_neg hne]
      rfl
    rw [hreplace, split_append_separator, split_replaceChar_of_notMem hpiece, ih,
      split_append_cons hpiece, List.flatMap_cons]

theorem join_concat (separator : Text) {pieces : List Text} (h : pieces ≠ []) (piece : Text) :
    join separator (pieces ++ [piece]) = join separator pieces ++ (separator ++ piece) := by
  induction pieces with
  | nil => exact absurd rfl h
  | cons first pieces ih =>
    cases pieces with
    | nil => simp [join]
    | cons next pieces =>
      have ih := ih (List.cons_ne_nil _ _)
      rw [join, join] at ih ⊢
      rw [List.cons_append, List.cons_append, List.intercalate_cons_cons,
        List.intercalate_cons_cons, ← List.cons_append, ih]
      simp only [List.append_assoc]

theorem mem_of_mem_split {c d : Char} {t piece : Text} (h : piece ∈ split c t) (hd : d ∈ piece) :
    d ∈ t := by
  induction t generalizing piece with
  | nil =>
    rw [split, List.mem_singleton] at h
    exact h ▸ hd
  | cons e t ih =>
    rw [split] at h
    split at h
    · rcases List.mem_cons.mp h with rfl | h
      · simp at hd
      · exact List.mem_cons_of_mem e (ih h hd)
    · split at h
      · rw [List.mem_singleton.mp h] at hd
        exact List.mem_cons.mpr (.inl (List.mem_singleton.mp hd))
      · next first pieces hs =>
        rcases List.mem_cons.mp h with rfl | h
        · exact List.mem_cons.mpr ((List.mem_cons.mp hd).imp_right
            (ih (hs ▸ List.mem_cons_self)))
        · exact List.mem_cons_of_mem e (ih (hs ▸ List.mem_cons_of_mem first h) hd)

theorem mem_of_mem_join {separator : Text} {pieces : List Text} {c : Char}
    (h : c ∈ join separator pieces) : c ∈ separator ∨ ∃ piece ∈ pieces, c ∈ piece := by
  induction pieces with
  | nil => simp [join] at h
  | cons piece pieces ih =>
    cases pieces with
    | nil => exact .inr ⟨piece, List.mem_cons_self, by simpa [join] using h⟩
    | cons next pieces =>
      rw [join, List.intercalate_cons_cons, List.mem_append, List.mem_append] at h
      rcases h with (h | h) | h
      · exact .inr ⟨piece, List.mem_cons_self, h⟩
      · exact .inl h
      · exact (ih h).imp_right fun ⟨p, hp, hc⟩ ↦ ⟨p, List.mem_cons_of_mem piece hp, hc⟩

theorem mem_join_of_mem {separator : Text} {pieces : List Text} {piece : Text} {c : Char}
    (h : piece ∈ pieces) (hc : c ∈ piece) : c ∈ join separator pieces := by
  induction pieces with
  | nil => cases h
  | cons first pieces ih =>
    cases pieces with
    | nil =>
      rw [List.mem_singleton.mp h] at hc
      simpa [join] using hc
    | cons next pieces =>
      rw [join, List.intercalate_cons_cons, List.mem_append, List.mem_append]
      rcases List.mem_cons.mp h with rfl | h
      · exact .inl (.inl hc)
      · exact .inr (ih h)

theorem trim_sublist (t : Text) : (trim t).Sublist t := by
  have hend (u : Text) : (trimEnd u).Sublist u := by
    simpa [trimEnd] using (List.dropWhile_sublist (l := u.reverse) isSpace).reverse
  exact (hend _).trans (List.dropWhile_sublist isSpace)

end Text

namespace Path

theorem name_mem_split {path n : Text} (h : .name n ∈ components path) :
    n ∈ Text.split '/' path := by
  have hsteps : .name n ∈ (Text.split '/' path).filterMap Component.ofPiece? := by
    simp only [components] at h
    split at h
    · simpa using h
    · split at h <;> simpa using h
  obtain ⟨piece, hp, hn⟩ := List.mem_filterMap.mp hsteps
  rw [Component.ofPiece?] at hn
  split at hn
  · simp at hn
  · split at hn
    · simp at hn
    · simp only [Option.some.injEq, Component.name.injEq] at hn
      exact hn ▸ hp

theorem mem_of_mem_stem? {path stem : Text} (h : stem? path = some stem) {c : Char}
    (hc : c ∈ stem) : c ∈ path ∨ c = '.' := by
  obtain ⟨n, hn, rfl⟩ := Option.map_eq_some_iff.mp h
  have hname : ∀ d ∈ n, d ∈ path := by
    rw [fileName?] at hn
    split at hn
    · next last hlast =>
      rw [← Option.some.inj hn]
      exact fun d ↦ Text.mem_of_mem_split (name_mem_split (List.mem_of_getLast? hlast))
    · simp at hn
  simp only [cutAtDot] at hc
  split at hc
  · exact .inl (hname c hc)
  · exact .inl (hname c hc)
  · exact .inl (hname c hc)
  · rcases Text.mem_of_mem_join hc with hc | ⟨piece, hp, hc⟩
    · exact .inr (List.mem_singleton.mp hc)
    · exact .inl (hname c (Text.mem_of_mem_split (List.mem_of_mem_dropLast hp) hc))

end Path

end HeaderStamp
