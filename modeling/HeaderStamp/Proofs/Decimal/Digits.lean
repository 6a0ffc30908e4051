import HeaderStamp.Decimal.Binary64
import Mathlib.Data.List.Basic

namespace HeaderStamp

namespace Text

theorem ofNat_ne_nil (n : Nat) : ofNat n ≠ [] := Nat.toDigits_ne_nil

theorem isDigit_of_mem_ofNat {n : Nat} {c : Char} (h : c ∈ ofNat n) :
    Binary64.isDigit c = true :=
  Nat.isDigit_of_mem_toDigits (by decide) (by decide) h

theorem notMem_ofNat {c : Char} (h : Binary64.isDigit c = false) (n : Nat) : c ∉ ofNat n := by
  intro hmem
  rw [isDigit_of_mem_ofNat hmem] at h
  cases h

theorem ofNat_of_ten_le {n : Nat} (h : 10 ≤ n) :
    ofNat n = ofNat (n / 10) ++ [Nat.digitChar (n % 10)] :=
  Nat.toDigits_of_base_le (by decide) h

theorem head?_ofNat_ne {n : Nat} (h : n ≠ 0) : (ofNat n).head? ≠ some '0' := by
  induction n using Nat.strongRecOn with
  | _ n ih =>
    rcases Nat.lt_or_ge n 10 with hlt | hge
    · have hsmall : ∀ k < 10, k ≠ 0 → (ofNat k).head? ≠ some '0' := by decide
      exact hsmall n hlt h
    · rw [ofNat_of_ten_le hge, List.head?_append_of_ne_nil _ (ofNat_ne_nil _)]
      exact ih (n / 10) (by omega) (by omega)

end Text

namespace Binary64

theorem natOfDigits_ofNat (n : Nat) : natOfDigits (Text.ofNat n) = n := by
  have h := @Nat.ofDigitChars_ten_toDigits n
  rw [Nat.ofDigitChars_eq_foldl] at h
  simpa only [natOfDigits, digitValue, Text.ofNat, Nat.mul_comm] using h

theorem isDigit_digitChar {n : Nat} (h : n < 10) : isDigit (Nat.digitChar n) = true := by
  rw [show isDigit (Nat.digitChar n) = (Nat.digitChar n).isDigit from rfl, Nat.isDigit_digitChar]
  exact decide_eq_true h

theorem notMem_signed {c : Char} (hminus : c ≠ '-') {t : Text} (h : c ∉ t) (negative : Bool) :
    c ∉ signed negative t := by
  cases negative with
  | false => exact h
  | true => exact fun hmem ↦ (List.mem_cons.mp hmem).elim hminus h

theorem feed_notMem_twoPlaces (x : Binary64) : '\n' ∉ x.twoPlaces := by
  have hdigit {n : Nat} (hn : n < 10) : '\n' ≠ Nat.digitChar n := by
    intro h
    have hn := isDigit_digitChar hn
    rw [← h] at hn
    cases hn
  cases x with
  | nan => decide
  | infinite negative => exact notMem_signed (by decide) (by decide) negative
  | finite negative mantissa exponent =>
    refine notMem_signed (by decide) ?_ negative
    rw [List.mem_append, not_or]
    refine ⟨Text.notMem_ofNat (by decide) _, ?_⟩
    simp only [List.mem_cons, List.not_mem_nil, or_false, not_or]
    exact ⟨by decide, hdigit (by omega), hdigit (by omega)⟩

end Binary64

end HeaderStamp
