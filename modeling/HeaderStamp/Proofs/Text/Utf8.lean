import HeaderStamp.Text.Utf8

namespace HeaderStamp.Utf8

theorem between_iff (low high b : UInt8) :
    (low ≤ b && b ≤ high) = true ↔ low.toNat ≤ b.toNat ∧ b.toNat ≤ high.toNat := by
  simp [UInt8.le_iff_toNat_le]

theorem isContinuation_iff (b : UInt8) :
    isContinuation b = true ↔ 0x80 ≤ b.toNat ∧ b.toNat ≤ 0xBF := between_iff 0x80 0xBF b

theorem chunk_eq (lead : UInt8) (rest : Bytes) :
    chunk lead rest =
      if lead.toNat < 0x80 then .char (Char.ofNat lead.toNat) 1
      else if 0xC2 ≤ lead.toNat ∧ lead.toNat ≤ 0xDF then chunkTwo lead rest
      else if 0xE0 ≤ lead.toNat ∧ lead.toNat ≤ 0xEF then chunkThree lead rest
      else if 0xF0 ≤ lead.toNat ∧ lead.toNat ≤ 0xF4 then chunkFour lead rest
      else .bad 1 := by
  simp only [chunk, between_iff, UInt8.lt_iff_toNat_lt]
  rfl

theorem isSecond_iff (lead second : UInt8) : isSecond lead second = true ↔
    (0x80 ≤ second.toNat ∧ second.toNat ≤ 0xBF) ∧
      (lead.toNat = 0xE0 → 0xA0 ≤ second.toNat) ∧ (lead.toNat = 0xED → second.toNat ≤ 0x9F) ∧
      (lead.toNat = 0xF0 → 0x90 ≤ second.toNat) ∧ (lead.toNat = 0xF4 → second.toNat ≤ 0x8F) := by
  simp only [isSecond, ← isContinuation_iff, ← UInt8.toNat_inj]
  fun_cases isSecond lead second <;>
    simp_all [← UInt8.toNat_inj, isContinuation_iff, UInt8.le_iff_toNat_le] <;> omega

inductive Spells (c : Char) : Bytes → Prop
  | one {a : UInt8} : c.toNat < 0x80 → a.toNat = c.toNat → Spells c [a]
  | two {a b : UInt8} : 0x80 ≤ c.toNat → c.toNat < 0x800 →
      a.toNat = c.toNat / 64 + 0xC0 → b.toNat = c.toNat % 64 + 0x80 → Spells c [a, b]
  | three {a b d : UInt8} : 0x800 ≤ c.toNat → c.toNat < 0x10000 →
      a.toNat = c.toNat / 4096 + 0xE0 → b.toNat = c.toNat / 64 % 64 + 0x80 →
      d.toNat = c.toNat % 64 + 0x80 → Spells c [a, b, d]
  | four {a b d e : UInt8} : 0x10000 ≤ c.toNat →
      a.toNat = c.toNat / 262144 + 0xF0 → b.toNat = c.toNat / 4096 % 64 + 0x80 →
      d.toNat = c.toNat / 64 % 64 + 0x80 → e.toNat = c.toNat % 64 + 0x80 → Spells c [a, b, d, e]

theorem toNat_cases (c : Char) :
    c.toNat < 0xD800 ∨ 0xDFFF < c.toNat ∧ c.toNat < 0x110000 := c.valid

theorem toNat_ofNat {n : Nat} (h : n < 0xD800 ∨ 0xDFFF < n ∧ n < 0x110000) :
    (Char.ofNat n).toNat = n := by
  rw [Char.ofNat, dif_pos h]
  rfl

theorem spells_encodeChar (c : Char) : Spells c (String.utf8EncodeChar c) := by
  have hv : c.val.toNat = c.toNat := rfl
  have hc := toNat_cases c
  rw [String.utf8EncodeChar, hv]
  split
  · exact .one (by omega) (by rw [UInt8.toNat_ofNat']; omega)
  split
  · refine .two (by omega) (by omega) ?_ ?_ <;> rw [UInt8.toNat_ofNat'] <;> omega
  split
  · refine .three (by omega) (by omega) ?_ ?_ ?_ <;> rw [UInt8.toNat_ofNat'] <;> omega
  · refine .four (by omega) ?_ ?_ ?_ ?_ <;> rw [UInt8.toNat_ofNat'] <;> omega

theorem Spells.unique {c : Char} {xs ys : Bytes} (hx : Spells c xs) (hy : Spells c ys) :
    xs = ys := by
  cases hx <;> cases hy <;> first
    | omega
    | (simp only [List.cons.injEq, ← UInt8.toNat_inj, and_true]; omega)

theorem chunk_of_spells {c : Char} {a : UInt8} {more : Bytes} (h : Spells c (a :: more))
    (rest : Bytes) : chunk a (more ++ rest) = .char c (more.length + 1) := by
  have hc := toNat_cases c
  rw [chunk_eq]
  cases h with
  | one hlt ha => rw [if_pos (by omega), ha, Char.ofNat_toNat]; rfl
  | @two _ b hge hlt ha hb =>
    have hcont : isContinuation b = true := (isContinuation_iff b).mpr (by omega)
    have hvalue : a.toNat % 32 * 64 + payload b = c.toNat := by rw [payload]; omega
    rw [if_neg (by omega), if_pos (by omega), List.cons_append, chunkTwo, if_pos hcont, hvalue,
      Char.ofNat_toNat]
    rfl
  | @three _ b d hge hlt ha hb hd =>
    have hsecond : isSecond a b = true := (isSecond_iff a b).mpr (by omega)
    have hcont : isContinuation d = true := (isContinuation_iff d).mpr (by omega)
    have hvalue : (a.toNat % 16 * 64 + payload b) * 64 + payload d = c.toNat := by
      rw [payload, payload]; omega
    rw [if_neg (by omega), if_neg (by omega), if_pos (by omega), List.cons_append, List.cons_append,
      chunkThree, hsecond, hcont, hvalue, Char.ofNat_toNat]
    rfl
  | @four _ b d e hge ha hb hd he =>
    have hsecond : isSecond a b = true := (isSecond_iff a b).mpr (by omega)
    have hthird : isContinuation d = true := (isContinuation_iff d).mpr (by omega)
    have hfourth : isContinuation e = true := (isContinuation_iff e).mpr (by omega)
    have hvalue : ((a.toNat % 8 * 64 + payload b) * 64 + payload d) * 64 + payload e =
        c.toNat := by
      rw [payload, payload, payload]; omega
    rw [if_neg (by omega), if_neg (by omega), if_neg (by omega), if_pos (by omega)]
    simp only [List.cons_append, chunkFour, hsecond, hthird, hfourth, hvalue, Char.ofNat_toNat]
    rfl

theorem spells_of_chunkTwo {c : Char} {a : UInt8} {rest : Bytes} {width : Nat}
    (hlead : 0xC2 ≤ a.toNat ∧ a.toNat ≤ 0xDF) (h : chunkTwo a rest = .char c width) :
    ∃ more tail, rest = more ++ tail ∧ width = more.length + 1 ∧ Spells c (a :: more) := by
  rw [chunkTwo.eq_def] at h
  split at h
  · cases h
  · rename_i b tail
    split at h
    · rename_i hcont
      cases h
      have hb := (isContinuation_iff b).mp hcont
      have hvalue := toNat_ofNat (n := a.toNat % 32 * 64 + payload b) (by rw [payload]; omega)
      refine ⟨[b], tail, rfl, rfl, .two ?_ ?_ ?_ ?_⟩ <;> rw [hvalue, payload] <;> omega
    · cases h

theorem spells_of_chunkThree {c : Char} {a : UInt8} {rest : Bytes} {width : Nat}
    (hlead : 0xE0 ≤ a.toNat ∧ a.toNat ≤ 0xEF) (h : chunkThree a rest = .char c width) :
    ∃ more tail, rest = more ++ tail ∧ width = more.length + 1 ∧ Spells c (a :: more) := by
  rw [chunkThree.eq_def] at h
  split at h
  · cases h
  · split at h <;> cases h
  · rename_i b d tail
    cases hsecond : isSecond a b with
    | false => simp [hsecond] at h
    | true =>
      cases hcont : isContinuation d with
      | false => simp [hsecond, hcont] at h
      | true =>
        simp only [hsecond, hcont, Bool.not_true, Bool.false_eq_true, if_false] at h
        cases h
        have hb := (isSecond_iff a b).mp hsecond
        have hd := (isContinuation_iff d).mp hcont
        have hvalue := toNat_ofNat (n := (a.toNat % 16 * 64 + payload b) * 64 + payload d)
          (by rw [payload, payload]; omega)
        refine ⟨[b, d], tail, rfl, rfl, .three ?_ ?_ ?_ ?_ ?_⟩ <;>
          rw [hvalue, payload, payload] <;> omega

theorem spells_of_chunkFour {c : Char} {a : UInt8} {rest : Bytes} {width : Nat}
    (hlead : 0xF0 ≤ a.toNat ∧ a.toNat ≤ 0xF4) (h : chunkFour a rest = .char c width) :
    ∃ more tail, rest = more ++ tail ∧ width = more.length + 1 ∧ Spells c (a :: more) := by
  rw [chunkFour.eq_def] at h
  split at h
  · cases h
  · split at h <;> cases h
  · split at h
    · cases h
    · split at h <;> cases h
  · rename_i b d e tail
    cases hsecond : isSecond a b with
    | false => simp [hsecond] at h
    | true =>
      cases hthird : isContinuation d with
      | false => simp [hsecond, hthird] at h
      | true =>
        cases hfourth : isContinuation e with
        | false => simp [hsecond, hthird, hfourth] at h
        | true =>
          simp only [hsecond, hthird, hfourth, Bool.not_true, Bool.false_eq_true, if_false] at h
          cases h
          have hb := (isSecond_iff a b).mp hsecond
          have hd := (isContinuation_iff d).mp hthird
          have he := (isContinuation_iff e).mp hfourth
          have hvalue := toNat_ofNat
            (n := ((a.toNat % 8 * 64 + payload b) * 64 + payload d) * 64 + payload e)
            (by rw [payload, payload, payload]; omega)
          refine ⟨[b, d, e], tail, rfl, rfl, .four ?_ ?_ ?_ ?_ ?_⟩ <;>
            rw [hvalue, payload, payload, payload] <;> omega

theorem spells_of_chunk {c : Char} {a : UInt8} {rest : Bytes} {width : Nat}
    (h : chunk a rest = .char c width) :
    ∃ more tail, rest = more ++ tail ∧ width = more.length + 1 ∧ Spells c (a :: more) := by
  rw [chunk_eq] at h
  split at h
  · cases h
    have hvalue := toNat_ofNat (n := a.toNat) (by omega)
    exact ⟨[], rest, rfl, rfl, .one (by omega) hvalue.symm⟩
  split at h
  · exact spells_of_chunkTwo ‹_› h
  split at h
  · exact spells_of_chunkThree ‹_› h
  split at h
  · exact spells_of_chunkFour ‹_› h
  · cases h

theorem chunksAfter_append (xs ys : Bytes) : chunksAfter xs.length (xs ++ ys) = chunks ys := by
  induction xs with
  | nil => rfl
  | cons x xs ih => exact ih

theorem chunks_encodeChar_append (c : Char) (rest : Bytes) :
    chunks (String.utf8EncodeChar c ++ rest) =
      .char c (String.utf8EncodeChar c).length :: chunks rest := by
  have hspells := spells_encodeChar c
  cases hbytes : String.utf8EncodeChar c with
  | nil => exact absurd hbytes String.utf8EncodeChar_ne_nil
  | cons b more =>
    rw [hbytes] at hspells
    rw [List.cons_append, chunks, chunksAfter, chunk_of_spells hspells]
    exact congrArg _ (chunksAfter_append more rest)

theorem collect_chunks_encode (index : Nat) (t : Text) :
    collect index (chunks (encode t)) = .ok t := by
  induction t generalizing index with
  | nil => rfl
  | cons c t ih =>
    rw [encode, List.flatMap_cons, chunks_encodeChar_append, collect]
    rw [encode] at ih
    rw [ih]

/-- What is written as text is read as that text. -/
theorem decode_encode (t : Text) : decode (encode t) = .ok t := collect_chunks_encode 0 t

theorem chunks_cons_eq_char {a : UInt8} {rest : Bytes} {c : Char} {width : Nat}
    (h : chunk a rest = .char c width) :
    ∃ tail, a :: rest = String.utf8EncodeChar c ++ tail ∧
      chunks (a :: rest) = .char c width :: chunks tail := by
  obtain ⟨more, tail, rfl, rfl, hspells⟩ := spells_of_chunk h
  refine ⟨tail, ?_, ?_⟩
  · rw [← hspells.unique (spells_encodeChar c), List.cons_append]
  · rw [chunks, chunksAfter, h]
    exact congrArg _ (chunksAfter_append more tail)

theorem eq_encode_of_collect {t : Text} {index : Nat} {bytes : Bytes}
    (h : collect index (chunks bytes) = .ok t) : bytes = encode t := by
  induction t generalizing index bytes with
  | nil =>
    cases bytes with
    | nil => rfl
    | cons a rest =>
      rw [chunks, chunksAfter] at h
      cases hchunk : chunk a rest with
      | char c width =>
        rw [hchunk, collect] at h
        split at h <;> cases h
      | bad width => simp [hchunk, collect] at h
      | cut width => simp [hchunk, collect] at h
  | cons c t ih =>
    cases bytes with
    | nil => cases h
    | cons a rest =>
      cases hchunk : chunk a rest with
      | char first width =>
        obtain ⟨tail, hbytes, hchunks⟩ := chunks_cons_eq_char hchunk
        rw [hchunks, collect] at h
        split at h
        · rename_i found hfound
          cases h
          rw [hbytes, ih hfound]
          rfl
        · cases h
      | bad width => simp [chunks, chunksAfter, hchunk, collect] at h
      | cut width => simp [chunks, chunksAfter, hchunk, collect] at h

/-- Only the bytes of a text are read as that text. -/
theorem decode_eq_ok_iff (bytes : Bytes) (t : Text) : decode bytes = .ok t ↔ bytes = encode t := by
  constructor
  · exact eq_encode_of_collect
  · rintro rfl
    exact decode_encode t

theorem encode_append (s t : Text) : encode (s ++ t) = encode s ++ encode t := List.flatMap_append

end HeaderStamp.Utf8
