import HeaderStamp.Json.Reader
import Mathlib.Tactic.SplitIfs

namespace HeaderStamp.Json

theorem hexDigit?_digitChar {d : Nat} (h : d < 16) : hexDigit? (Nat.digitChar d) = some d := by
  have hall : ∀ d < 16, hexDigit? (Nat.digitChar d) = some d := by decide
  exact hall d h

theorem codeUnit?_fourHex {n : Nat} (h : n < 65536) (rest : Text) :
    codeUnit? (fourHex n ++ rest) = some (n, rest) := by
  have hdigit (k : Nat) : hexDigit? (Nat.digitChar (k % 16)) = some (k % 16) :=
    hexDigit?_digitChar (Nat.mod_lt k (by decide))
  have hvalue : ((n / 4096 % 16 * 16 + n / 256 % 16) * 16 + n / 16 % 16) * 16 + n % 16 = n := by
    omega
  simp [fourHex, codeUnit?, hdigit, hvalue]

theorem unicode?_fourHex {c : Char} (h : c.toNat < 32) (rest : Text) :
    unicode? (fourHex c.toNat ++ rest) = some (c, rest) := by
  have hvalid : c.toNat.isValidChar := .inl (by omega)
  rw [unicode?, codeUnit?_fourHex (by omega)]
  simp only [Option.bind_some, if_pos hvalid, Char.ofNat_toNat]

theorem escapeChar_cases (c : Char) :
    (escapeChar c = [c] ∧ c ≠ '"' ∧ c ≠ '\\' ∧ 32 ≤ c.toNat) ∨
      ∃ e, escapeChar c = '\\' :: e ∧ ∀ rest, escape? (e ++ rest) = some (c, rest) := by
  rw [escapeChar]
  split_ifs with hquote hbackslash hback hform hfeed hreturn htab hcontrol
  · exact .inr ⟨['"'], rfl, fun rest ↦ by rw [hquote]; rfl⟩
  · exact .inr ⟨['\\'], rfl, fun rest ↦ by rw [hbackslash]; rfl⟩
  · exact .inr ⟨['b'], rfl, fun rest ↦ by rw [hback]; rfl⟩
  · exact .inr ⟨['f'], rfl, fun rest ↦ by rw [hform]; rfl⟩
  · exact .inr ⟨['n'], rfl, fun rest ↦ by rw [hfeed]; rfl⟩
  · exact .inr ⟨['r'], rfl, fun rest ↦ by rw [hreturn]; rfl⟩
  · exact .inr ⟨['t'], rfl, fun rest ↦ by rw [htab]; rfl⟩
  · exact .inr ⟨'u' :: fourHex c.toNat, rfl, fun rest ↦ unicode?_fourHex hcontrol rest⟩
  · exact .inl ⟨rfl, hquote, hbackslash, Nat.le_of_not_lt hcontrol⟩

theorem stringRest?_escapeChar (fuel : Nat) (c : Char) (rest : Text) :
    stringRest? (fuel + 1) (escapeChar c ++ rest) =
      (stringRest? fuel rest).map fun (t, last) ↦ (c :: t, last) := by
  rcases escapeChar_cases c with ⟨hplain, hquote, hbackslash, hshown⟩ | ⟨e, hescape, hread⟩
  · rw [hplain, List.singleton_append, stringRest?, if_neg hquote, if_neg hbackslash,
      if_neg (Nat.not_lt.mpr hshown)]
  · rw [hescape, List.cons_append, stringRest?, if_neg (by decide), if_pos rfl, hread]
    rfl

theorem stringRest?_flatMap (t rest : Text) {fuel : Nat} (hfuel : t.length < fuel) :
    stringRest? fuel (t.flatMap escapeChar ++ '"' :: rest) = some (t, rest) := by
  induction t generalizing fuel with
  | nil =>
    obtain ⟨fuel, rfl⟩ : ∃ k, fuel = k + 1 := ⟨fuel - 1, by omega⟩
    rfl
  | cons c t ih =>
    obtain ⟨fuel, rfl⟩ : ∃ k, fuel = k + 1 := ⟨fuel - 1, by omega⟩
    rw [List.length_cons] at hfuel
    rw [List.flatMap_cons, List.append_assoc, stringRest?_escapeChar, ih (by omega)]
    rfl

theorem length_le_flatMap_escapeChar (t : Text) : t.length ≤ (t.flatMap escapeChar).length := by
  have hpos (c : Char) : 1 ≤ (escapeChar c).length := by
    rcases escapeChar_cases c with ⟨h, -⟩ | ⟨e, h, -⟩
    · simp [h]
    · simp [h]
  induction t with
  | nil => exact Nat.le_refl 0
  | cons c t ih =>
    have hc := hpos c
    rw [List.flatMap_cons, List.length_append, List.length_cons]
    omega

theorem string?_stringText (t rest : Text) : string? (stringText t ++ rest) = some (t, rest) := by
  have hlength := length_le_flatMap_escapeChar t
  have htext : stringText t ++ rest = '"' :: (t.flatMap escapeChar ++ '"' :: rest) := by
    simp [stringText]
  rw [htext, string?, stringRest?_flatMap]
  rw [List.length_append]
  omega

end HeaderStamp.Json
