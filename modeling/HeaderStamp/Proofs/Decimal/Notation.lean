import HeaderStamp.Proofs.Decimal.Digits

namespace HeaderStamp

namespace Text

variable {test : Char → Bool} {front rest : Text}

theorem takeWhile_append_of_head? (hfront : ∀ c ∈ front, test c = true)
    (hrest : ∀ c ∈ rest.head?, test c = false) : (front ++ rest).takeWhile test = front := by
  rw [List.takeWhile_append_of_pos hfront]
  cases rest with
  | nil => simp
  | cons c rest => simp [hrest c rfl]

theorem dropWhile_append_of_head? (hfront : ∀ c ∈ front, test c = true)
    (hrest : ∀ c ∈ rest.head?, test c = false) : (front ++ rest).dropWhile test = rest := by
  rw [List.dropWhile_append_of_pos hfront]
  cases rest with
  | nil => rfl
  | cons c rest => simp [hrest c rfl]

end Text

namespace Binary64

structure IsDigits (t : Text) : Prop where
  ne_nil : t ≠ []
  isDigit_eq : ∀ c ∈ t, isDigit c = true

def IsFraction (t : Text) : Prop := t = [] ∨ ∃ digits, t = '.' :: digits ∧ IsDigits digits

def IsExponent (t : Text) : Prop :=
  t = [] ∨ ∃ sign digits, t = 'e' :: sign :: digits ∧ sign ∈ ['+', '-'] ∧ IsDigits digits

/-- A number without its sign. The digits before the point begin with a zero only if there is no
other one. -/
inductive IsNumeral : Text → Prop
  | parts {whole fraction exponent : Text} : IsDigits whole →
      (whole.head? ≠ some '0' ∨ whole.length = 1) → IsFraction fraction → IsExponent exponent →
      IsNumeral (whole ++ (fraction ++ exponent))

variable {t digits fraction exponent : Text}

theorem isDigits_zero : IsDigits ['0'] where
  ne_nil := List.cons_ne_nil _ _
  isDigit_eq := List.forall_mem_singleton.mpr (by decide)

theorem isDigits_ofNat (n : Nat) : IsDigits (Text.ofNat n) :=
  ⟨Text.ofNat_ne_nil n, fun _ ↦ Text.isDigit_of_mem_ofNat⟩

theorem isDigit_head?_exponent (h : IsExponent exponent) :
    ∀ c ∈ exponent.head?, isDigit c = false := by
  rcases h with rfl | ⟨sign, digits, rfl, -, -⟩
  · simp
  · simp
    decide

theorem isDigit_head?_fraction (h : IsFraction fraction) (hexponent : IsExponent exponent) :
    ∀ c ∈ (fraction ++ exponent).head?, isDigit c = false := by
  rcases h with rfl | ⟨digits, rfl, -⟩
  · exact isDigit_head?_exponent hexponent
  · simp
    decide

theorem exists_exponent? {sign : Char} (hsign : sign ∈ ['+', '-']) (hdigits : IsDigits digits) :
    ∃ i, exponent? (sign :: digits) = some i := by
  have hall : digits ≠ [] ∧ digits.all isDigit :=
    ⟨hdigits.ne_nil, List.all_eq_true.mpr hdigits.isDigit_eq⟩
  simp only [List.mem_cons, List.not_mem_nil, or_false] at hsign
  rcases hsign with rfl | rfl
  · exact ⟨_, if_pos hall⟩
  · exact ⟨_, if_pos hall⟩

theorem IsNumeral.exists_ofUnsigned? (h : IsNumeral t) (negative : Bool) :
    ∃ x, ofUnsigned? negative t = some x := by
  cases h with
  | @parts whole fraction exponent hwhole _ hfraction hexponent =>
    have hhead := isDigit_head?_fraction hfraction hexponent
    have htake := Text.takeWhile_append_of_head? hwhole.isDigit_eq hhead
    have hdrop := Text.dropWhile_append_of_head? hwhole.isDigit_eq hhead
    have hne := hwhole.ne_nil
    have hlast := isDigit_head?_exponent hexponent
    rw [ofUnsigned?, htake, hdrop]
    rcases hfraction with rfl | ⟨digits, rfl, hdigits⟩
    · rcases hexponent with rfl | ⟨sign, power, rfl, hsign, hpower⟩
      · simp [hne]
      · obtain ⟨i, hi⟩ := exists_exponent? hsign hpower
        simp [hne, hi]
    · have htake := Text.takeWhile_append_of_head? hdigits.isDigit_eq hlast
      have hdrop := Text.dropWhile_append_of_head? hdigits.isDigit_eq hlast
      rcases hexponent with rfl | ⟨sign, power, rfl, hsign, hpower⟩
      · rw [List.append_nil] at htake hdrop
        simp [hne, htake, hdrop]
      · obtain ⟨i, hi⟩ := exists_exponent? hsign hpower
        simp [hne, hi, htake, hdrop]

theorem isDigit_of_mem_replicate {count : Nat} {c : Char} (h : c ∈ List.replicate count '0') :
    isDigit c = true := by
  rw [List.eq_of_mem_replicate h]
  decide

theorem IsDigits.zeros_append (h : IsDigits t) (count : Nat) :
    IsDigits (List.replicate count '0' ++ t) where
  ne_nil hnil := h.ne_nil (List.append_eq_nil_iff.mp hnil).2
  isDigit_eq c hc := by
    rcases List.mem_append.mp hc with hc | hc
    · exact isDigit_of_mem_replicate hc
    · exact h.isDigit_eq c hc

theorem IsDigits.take_append_zeros (h : IsDigits t) (length count : Nat) :
    IsDigits (t.take (length + 1) ++ List.replicate count '0') where
  ne_nil := by simp [h.ne_nil]
  isDigit_eq c hc := by
    rcases List.mem_append.mp hc with hc | hc
    · exact h.isDigit_eq c (List.mem_of_mem_take hc)
    · exact isDigit_of_mem_replicate hc

theorem IsDigits.drop (h : IsDigits t) {count : Nat} (hlong : ¬ t.length ≤ count) :
    IsDigits (t.drop count) where
  ne_nil hnil := hlong (List.drop_eq_nil_iff.mp hnil)
  isDigit_eq c hc := h.isDigit_eq c (List.mem_of_mem_drop hc)

theorem isNumeral_point {whole : Text} (hwhole : IsDigits whole)
    (hzero : whole.head? ≠ some '0' ∨ whole.length = 1) (hdigits : IsDigits digits) :
    IsNumeral (whole ++ '.' :: digits) := by
  have h : IsNumeral (whole ++ ('.' :: digits ++ [])) :=
    .parts hwhole hzero (.inr ⟨digits, rfl, hdigits⟩) (.inl rfl)
  rwa [List.append_nil] at h

theorem withPoint_of_mem (h : '.' ∈ t) : withPoint t = t := if_pos h

theorem isNumeral_withPoint_positional (hdigits : IsDigits digits)
    (hzero : digits.head? ≠ some '0') (leading : Int) :
    IsNumeral (withPoint (positional digits leading)) := by
  rw [positional]
  split
  · have hpoint : '.' ∈ "0.".toList ++ List.replicate (-leading - 1).toNat '0' ++ digits := by
      simp
    rw [withPoint_of_mem hpoint, List.append_assoc]
    exact isNumeral_point isDigits_zero (.inr rfl) (hdigits.zeros_append _)
  · have hfront := hdigits.take_append_zeros leading.toNat (leading.toNat + 1 - digits.length)
    have hleading : (digits.take (leading.toNat + 1) ++
        List.replicate (leading.toNat + 1 - digits.length) '0').head? ≠ some '0' := by
      obtain ⟨d, more, rfl⟩ := List.exists_cons_of_ne_nil hdigits.ne_nil
      simpa using hzero
    dsimp only
    generalize digits.take (leading.toNat + 1) ++
        List.replicate (leading.toNat + 1 - digits.length) '0' = front at hfront hleading
    split
    · have hnone : '.' ∉ front := fun hmem ↦ absurd (hfront.isDigit_eq '.' hmem) (by decide)
      rw [withPoint, if_neg hnone]
      exact isNumeral_point hfront (.inl hleading) isDigits_zero
    · next hlong =>
      rw [withPoint_of_mem (by simp)]
      exact isNumeral_point hfront (.inl hleading) (hdigits.drop hlong)

theorem isNumeral_scientific (hdigits : IsDigits digits) (leading : Int) :
    IsNumeral (scientific digits leading) := by
  have hsign : (if leading < 0 then '-' else '+') ∈ ['+', '-'] := by
    split <;> decide
  have hexponent : IsExponent ('e' :: (if leading < 0 then '-' else '+') ::
      Text.ofNat leading.natAbs) :=
    .inr ⟨_, _, rfl, hsign, isDigits_ofNat _⟩
  obtain ⟨d, more, rfl⟩ := List.exists_cons_of_ne_nil hdigits.ne_nil
  obtain ⟨hd, hmore⟩ := List.forall_mem_cons.mp hdigits.isDigit_eq
  have hone : IsDigits [d] := ⟨List.cons_ne_nil _ _, by simpa using hd⟩
  cases more with
  | nil => exact .parts hone (.inr rfl) (.inl rfl) hexponent
  | cons e more =>
    have hfraction : IsFraction ('.' :: e :: more) :=
      .inr ⟨e :: more, rfl, List.cons_ne_nil _ _, hmore⟩
    exact .parts hone (.inr rfl) hfraction hexponent

theorem ne_zero_of_digitsOfLength? {mantissa length k : Nat} {exponent unit : Int}
    (hmantissa : mantissa ≠ 0)
    (h : digitsOfLength? mantissa exponent length = some (k, unit)) : k ≠ 0 := by
  obtain ⟨found, hfound, hpair⟩ := Option.map_eq_some_iff.mp h
  cases hpair
  rintro rfl
  have hback := List.find?_some hfound
  rw [beq_iff_eq, ofDecimal, if_pos (.inl rfl)] at hback
  cases hback
  exact hmantissa rfl

theorem ne_zero_of_shortest {mantissa : Nat} (hmantissa : mantissa ≠ 0) (exponent : Int) :
    (shortest mantissa exponent).1 ≠ 0 := by
  rw [shortest]
  cases hfound : (List.range 17).findSome? fun k ↦ digitsOfLength? mantissa exponent (k + 1) with
  | none => exact hmantissa
  | some found =>
    obtain ⟨k, -, hk⟩ := List.exists_of_findSome?_eq_some hfound
    exact ne_zero_of_digitsOfLength? hmantissa hk

theorem ne_zero_of_stripZeros (fuel : Nat) {decimal : Nat × Int} (h : decimal.1 ≠ 0) :
    (stripZeros fuel decimal).1 ≠ 0 := by
  induction fuel generalizing decimal with
  | zero => exact h
  | succ fuel ih =>
    rw [stripZeros]
    split
    · exact ih (by dsimp only; omega)
    · exact h

theorem exists_shortestDigits_eq {mantissa : Nat} (hmantissa : mantissa ≠ 0) (exponent : Int) :
    ∃ n leading, n ≠ 0 ∧ shortestDigits mantissa exponent = (Text.ofNat n, leading) :=
  ⟨_, _, ne_zero_of_stripZeros 20 (ne_zero_of_shortest hmantissa exponent), rfl⟩

theorem exists_isNumeral_of_json? {x : Binary64} (h : x.json? = some t) :
    ∃ negative unsigned, t = signed negative unsigned ∧ IsNumeral unsigned := by
  cases x with
  | nan => cases h
  | infinite negative => cases h
  | finite negative mantissa exponent =>
    cases mantissa with
    | zero =>
      cases h
      refine ⟨negative, _, rfl, ?_⟩
      have h : IsNumeral (['0'] ++ ('.' :: ['0'] ++ [])) :=
        .parts isDigits_zero (.inr rfl) (.inr ⟨_, rfl, isDigits_zero⟩) (.inl rfl)
      exact h
    | succ mantissa =>
      obtain ⟨n, leading, hn, hdigits⟩ :=
        exists_shortestDigits_eq (Nat.succ_ne_zero mantissa) exponent
      rw [json?] at h
      · rw [hdigits] at h
        cases h
        refine ⟨negative, _, rfl, ?_⟩
        split
        · exact isNumeral_withPoint_positional (isDigits_ofNat n) (Text.head?_ofNat_ne hn) leading
        · exact isNumeral_scientific (isDigits_ofNat n) leading
      · exact Nat.succ_ne_zero mantissa

end Binary64

end HeaderStamp
