import HeaderStamp.Glob.Expansion
import HeaderStamp.Proofs.Attempts
import HeaderStamp.Proofs.Text.Pieces

namespace HeaderStamp.Glob

/-- A pattern that can be looked up: it can be read as a whole and step by step. -/
def Valid (pattern : Text) : Prop :=
  (∃ tokens, parse pattern = .ok tokens) ∧
    ∀ piece ∈ pieces pattern, ∃ tokens, parse piece = .ok tokens

theorem exists_expand_iff (machine : Machine) (pattern : Text) :
    (∃ found, expand machine pattern = .ok found) ↔ Valid pattern := by
  rw [expand]
  cases hparse : parse pattern with
  | error e => simp [Valid, hparse]
  | ok tokens =>
    cases hpieces : (pieces pattern).mapM parse with
    | error e =>
      obtain ⟨piece, hmem, hpiece⟩ := exists_mem_of_mapM_error hpieces
      constructor
      · rintro ⟨found, hfound⟩
        cases hfound
      · intro hvalid
        obtain ⟨read, hread⟩ := hvalid.2 piece hmem
        rw [hpiece] at hread
        cases hread
    | ok steps =>
      constructor
      · intro _
        refine ⟨⟨tokens, hparse⟩, fun piece hmem ↦ ?_⟩
        obtain ⟨read, -, hread⟩ := exists_ok_of_mapM_ok hpieces hmem
        exact ⟨read, hread⟩
      · intro _
        exact ⟨_, rfl⟩

theorem accepts_anyFolders (t : Text) : accepts [.anyFolders] t = true := by
  simp [accepts]

theorem accepts_char_iff (c : Char) (pattern : Pattern) (t : Text) :
    accepts (.char c :: pattern) t = true ↔
      ∃ rest, t = c :: rest ∧ accepts pattern rest = true := by
  cases t with
  | nil =>
    have hnone : accepts (.char c :: pattern) [] = false := rfl
    rw [hnone]
    simp
  | cons d t =>
    have hfirst : accepts (.char c :: pattern) (d :: t) =
        (decide (d = c) && accepts pattern t) := rfl
    rw [hfirst, Bool.and_eq_true, decide_eq_true_eq]
    constructor
    · rintro ⟨rfl, ht⟩
      exact ⟨t, rfl, ht⟩
    · rintro ⟨rest, hrest, ht⟩
      cases hrest
      exact ⟨rfl, ht⟩

theorem accepts_chars_append (chars : Text) (pattern : Pattern) (t : Text) :
    accepts (chars.map .char ++ pattern) t = true ↔
      ∃ rest, t = chars ++ rest ∧ accepts pattern rest = true := by
  induction chars generalizing t with
  | nil => simp
  | cons c chars ih =>
    rw [List.map_cons, List.cons_append, accepts_char_iff]
    constructor
    · rintro ⟨more, rfl, hmore⟩
      obtain ⟨rest, rfl, hrest⟩ := (ih more).mp hmore
      exact ⟨rest, rfl, hrest⟩
    · rintro ⟨rest, rfl, hrest⟩
      exact ⟨chars ++ rest, rfl, (ih _).mpr ⟨rest, rfl, hrest⟩⟩

def inFolder (name : Text) : Pattern :=
  .anyFolders :: (name.map .char ++ [.char '/', .anyFolders])

theorem accepts_leading_iff (name t : Text) :
    accepts (name.map .char ++ [.char '/', .anyFolders]) t = true ↔
      ∃ rest, t = name ++ '/' :: rest := by
  have hchars : name.map Token.char ++ [.char '/', .anyFolders] =
      (name ++ ['/']).map .char ++ [.anyFolders] := by simp
  rw [hchars, accepts_chars_append]
  simp [accepts_anyFolders]

theorem afterSlashes_of_notMem {piece : Text} (h : '/' ∉ piece) : afterSlashes piece = [] := by
  induction piece with
  | nil => rfl
  | cons c piece ih =>
    rw [List.mem_cons, not_or] at h
    rw [afterSlashes, if_neg (Ne.symm h.1), ih h.2]

theorem afterSlashes_append_cons {piece : Text} (h : '/' ∉ piece) (rest : Text) :
    afterSlashes (piece ++ '/' :: rest) = rest :: afterSlashes rest := by
  induction piece with
  | nil => rw [List.nil_append, afterSlashes, if_pos rfl]
  | cons c piece ih =>
    rw [List.mem_cons, not_or] at h
    rw [List.cons_append, afterSlashes, if_neg (Ne.symm h.1), ih h.2]

theorem exists_afterSlashes_iff {name : Text} (hname : '/' ∉ name) (t : Text) :
    (∃ u ∈ t :: afterSlashes t, ∃ rest, u = name ++ '/' :: rest) ↔
      name ∈ (Text.split '/' t).dropLast := by
  induction t using Text.pieceInduction '/' with
  | last piece hp =>
    rw [afterSlashes_of_notMem hp, Text.split_of_notMem hp]
    simp only [List.mem_singleton, exists_eq_left, List.dropLast_singleton, List.not_mem_nil,
      iff_false]
    rintro ⟨rest, rfl⟩
    exact hp (by simp)
  | piece piece rest hp ih =>
    have hhead : (∃ more, piece ++ '/' :: rest = name ++ '/' :: more) ↔ name = piece := by
      constructor
      · rintro ⟨more, hmore⟩
        have hsplit := congrArg (Text.split '/') hmore
        rw [Text.split_append_cons hp, Text.split_append_cons hname] at hsplit
        exact (List.cons.inj hsplit).1.symm
      · rintro rfl
        exact ⟨rest, rfl⟩
    rw [afterSlashes_append_cons hp, Text.split_append_cons hp,
      List.dropLast_cons_of_ne_nil (Text.split_ne_nil '/' rest), List.mem_cons, ← ih, ← hhead]
    simp only [List.mem_cons, exists_eq_or_imp]

theorem accepts_inFolder_iff {name : Text} (hname : '/' ∉ name) (t : Text) :
    accepts (inFolder name) t = true ↔ name ∈ (Text.split '/' t).dropLast := by
  have hempty : accepts (name.map .char ++ [.char '/', .anyFolders]) [] = false := by
    rw [← Bool.not_eq_true, accepts_leading_iff]
    simp
  rw [← exists_afterSlashes_iff hname, inFolder, accepts]
  simp only [hempty, Bool.or_false, Bool.or_eq_true, List.any_eq_true, accepts_leading_iff,
    List.mem_cons, exists_eq_or_imp]

end HeaderStamp.Glob
