import HeaderStamp.Json.Reader
import HeaderStamp.Proofs.Decimal.Notation

namespace HeaderStamp

namespace Binary64

variable {t : Text}

theorem isNumeral_ofNat (n : Nat) : IsNumeral (Text.ofNat n) := by
  have hleading : (Text.ofNat n).head? ≠ some '0' ∨ (Text.ofNat n).length = 1 := by
    by_cases hn : n = 0
    · subst hn
      exact .inr (by decide)
    · exact .inl (Text.head?_ofNat_ne hn)
  have h : IsNumeral (Text.ofNat n ++ ([] ++ [])) :=
    .parts (isDigits_ofNat n) hleading (.inl rfl) (.inl rfl)
  simpa using h

theorem IsNumeral.exists_cons (h : IsNumeral t) : ∃ c rest, t = c :: rest ∧ isDigit c = true := by
  cases h with
  | parts hwhole _ _ _ =>
    obtain ⟨c, whole, rfl⟩ := List.exists_cons_of_ne_nil hwhole.ne_nil
    exact ⟨c, _, rfl, hwhole.isDigit_eq c List.mem_cons_self⟩

end Binary64

namespace Json

open Binary64

variable {t : Text}

theorem isNumberChar_of_isDigit {c : Char} (h : isDigit c = true) : isNumberChar c = true := by
  simp [isNumberChar, h]

theorem isNumberChar_of_isNumeral (h : IsNumeral t) : ∀ c ∈ t, isNumberChar c = true := by
  cases h with
  | parts hwhole _ hfraction hexponent =>
    have hdigits {digits : Text} (h : IsDigits digits) : ∀ c ∈ digits, isNumberChar c = true :=
      fun c hc ↦ isNumberChar_of_isDigit (h.isDigit_eq c hc)
    refine List.forall_mem_append.mpr ⟨hdigits hwhole, List.forall_mem_append.mpr ⟨?_, ?_⟩⟩
    · rcases hfraction with rfl | ⟨digits, rfl, h⟩
      · exact List.forall_mem_nil _
      · exact List.forall_mem_cons.mpr ⟨by decide, hdigits h⟩
    · rcases hexponent with rfl | ⟨sign, digits, rfl, hsign, h⟩
      · exact List.forall_mem_nil _
      · have hsigns : ∀ c ∈ ['+', '-'], isNumberChar c = true :=
          List.forall_mem_cons.mpr ⟨by decide, List.forall_mem_singleton.mpr (by decide)⟩
        exact List.forall_mem_cons.mpr
          ⟨by decide, List.forall_mem_cons.mpr ⟨hsigns sign hsign, hdigits h⟩⟩

theorem wellFormed_of_isNumeral (h : IsNumeral t) : wellFormed t = true := by
  cases h with
  | @parts whole fraction exponent hwhole hleading hfraction hexponent =>
    have hhead := isDigit_head?_fraction hfraction hexponent
    have htake := Text.takeWhile_append_of_head? hwhole.isDigit_eq hhead
    have hne := hwhole.ne_nil
    rw [wellFormed, htake, List.drop_left]
    refine (Bool.and_eq_true _ _).mpr ⟨by simp [hne, hleading], ?_⟩
    rcases hfraction with rfl | ⟨digits, rfl, hdigits⟩
    · rcases hexponent with rfl | ⟨sign, power, rfl, -, -⟩
      · rfl
      · rfl
    · obtain ⟨d, more, rfl⟩ := List.exists_cons_of_ne_nil hdigits.ne_nil
      simpa using hdigits.isDigit_eq d List.mem_cons_self

theorem number?_signed {unsigned : Text} (h : IsNumeral unsigned) (negative : Bool) {i : Int}
    (hi : i = if negative then -(natOfDigits unsigned : Int) else natOfDigits unsigned) :
    number? (signed negative unsigned) =
      if unsigned.all isDigit ∧ -(Int.pow 2 63) ≤ i ∧ i < Int.pow 2 64 ∧ (i = 0 → !negative) then
        some (.integer i)
      else (ofUnsigned? negative unsigned).map Value.float := by
  have hformed := wellFormed_of_isNumeral h
  subst hi
  cases negative with
  | false =>
    obtain ⟨c, rest, rfl, hc⟩ := h.exists_cons
    have hminus : c ≠ '-' := by
      rintro rfl
      cases hc
    simp [number?, signed, hminus, hformed]
  | true => simp [number?, signed, hformed]

theorem exists_number?_signed {unsigned : Text} (h : IsNumeral unsigned) (negative : Bool) :
    ∃ value, number? (signed negative unsigned) = some value := by
  obtain ⟨x, hx⟩ := h.exists_ofUnsigned? negative
  obtain ⟨i, hi⟩ : ∃ i : Int, i = if negative then -(natOfDigits unsigned : Int)
      else natOfDigits unsigned := ⟨_, rfl⟩
  rw [number?_signed h negative hi, hx]
  split
  · exact ⟨_, rfl⟩
  · exact ⟨_, rfl⟩

theorem ofInt_eq_signed (i : Int) :
    Text.ofInt i = signed (decide (i < 0)) (Text.ofNat i.natAbs) := by
  rw [Text.ofInt]
  split
  · next h => simp [signed, h]
  · next h => simp [signed, h]

theorem number?_ofInt {i : Int} (hlow : -(Int.pow 2 63) ≤ i) (hhigh : i < Int.pow 2 64) :
    number? (Text.ofInt i) = some (.integer i) := by
  have hvalue : i = if decide (i < 0) then -(natOfDigits (Text.ofNat i.natAbs) : Int)
      else natOfDigits (Text.ofNat i.natAbs) := by
    rw [natOfDigits_ofNat]
    split
    · next h =>
      rw [decide_eq_true_eq] at h
      omega
    · next h =>
      rw [decide_eq_true_eq] at h
      omega
  have hdigits : (Text.ofNat i.natAbs).all isDigit = true :=
    List.all_eq_true.mpr (isDigits_ofNat _).isDigit_eq
  have hzero : i = 0 → !decide (i < 0) := by
    rintro rfl
    rfl
  rw [ofInt_eq_signed, number?_signed (isNumeral_ofNat _) _ hvalue,
    if_pos ⟨hdigits, hlow, hhigh, hzero⟩]

end Json

end HeaderStamp
