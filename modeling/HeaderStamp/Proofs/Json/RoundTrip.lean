import HeaderStamp.Proofs.Json.Numbers
import HeaderStamp.Proofs.Json.Strings

namespace HeaderStamp.Json

open Binary64

variable {t u rest : Text} {value : Value} {fuel : Nat}

theorem value?_congr (h : skipSpace t = skipSpace u) (fuel : Nat) :
    value? fuel t = value? fuel u := by
  cases fuel with
  | zero => rw [value?, value?]
  | succ fuel => rw [value?, value?, h]

theorem skipSpace_cons {c : Char} (h : isSpace c = false) (rest : Text) :
    skipSpace (c :: rest) = c :: rest := by
  rw [skipSpace, List.dropWhile_cons_of_neg (by simp [h])]

theorem skipSpace_append {spaces : Text} (h : ∀ c ∈ spaces, isSpace c = true) (t : Text) :
    skipSpace (spaces ++ t) = skipSpace t := List.dropWhile_append_of_pos h

theorem isSpace_of_mem_lineStart {depth : Nat} {c : Char} (h : c ∈ lineStart depth) :
    isSpace c = true := by
  rcases List.mem_cons.mp h with rfl | h
  · decide
  · rw [List.eq_of_mem_replicate h]
    decide

/-- A text that is read as the value, whatever stands behind it, with as much fuel as it is long. -/
structure ReadsAs (t : Text) (value : Value) : Prop where
  exists_cons : ∃ c rest, t = c :: rest ∧ isSpace c = false ∧ c ≠ ']'
  value?_eq : ∀ fuel rest, t.length ≤ fuel → (∀ c ∈ rest.head?, isNumberChar c = false) →
    value? fuel (t ++ rest) = some (value, rest)

theorem ReadsAs.value?_append (h : ReadsAs t value) {spaces : Text}
    (hspaces : ∀ c ∈ spaces, isSpace c = true) (hfuel : t.length ≤ fuel)
    (hrest : ∀ c ∈ rest.head?, isNumberChar c = false) :
    value? fuel (spaces ++ (t ++ rest)) = some (value, rest) := by
  rw [value?_congr (skipSpace_append hspaces _)]
  exact h.value?_eq fuel rest hfuel hrest

theorem exists_eq_succ {fuel length : Nat} (hpos : 0 < length) (hfuel : length ≤ fuel) :
    ∃ k, fuel = k + 1 := Nat.exists_eq_add_one_of_ne_zero (by omega)

theorem readsAs_null : ReadsAs "null".toList .null where
  exists_cons := ⟨'n', "ull".toList, rfl, by decide, by decide⟩
  value?_eq fuel rest hfuel _ := by
    obtain ⟨fuel, rfl⟩ := exists_eq_succ (by decide) hfuel
    rw [value?]
    rfl

theorem readsAs_boolean (b : Bool) :
    ReadsAs (if b then "true" else "false").toList (.boolean b) where
  exists_cons := by
    cases b with
    | false => exact ⟨'f', "alse".toList, rfl, by decide, by decide⟩
    | true => exact ⟨'t', "rue".toList, rfl, by decide, by decide⟩
  value?_eq fuel rest hfuel _ := by
    obtain ⟨fuel, rfl⟩ := exists_eq_succ (by cases b <;> decide) hfuel
    rw [value?]
    cases b with
    | false => rfl
    | true => rfl

theorem readsAs_stringText (s : Text) : ReadsAs (stringText s) (.string s) where
  exists_cons := ⟨'"', _, rfl, by decide, by decide⟩
  value?_eq fuel rest hfuel _ := by
    obtain ⟨fuel, rfl⟩ := exists_eq_succ (Nat.succ_pos _) hfuel
    obtain ⟨more, hmore⟩ : ∃ more, stringText s ++ rest = '"' :: more := ⟨_, rfl⟩
    have hstring := string?_stringText s rest
    rw [hmore] at hstring ⊢
    simp only [value?, skipSpace_cons (by decide : isSpace '"' = false), hstring]
    rfl

theorem readsAs_number (ht : t ≠ []) (hchars : ∀ c ∈ t, isNumberChar c = true)
    (hvalue : number? t = some value) : ReadsAs t value := by
  obtain ⟨c, more, rfl⟩ := List.exists_cons_of_ne_nil ht
  have hne {d : Char} (hd : isNumberChar d = false) : c ≠ d := by
    rintro rfl
    rw [hchars c List.mem_cons_self] at hd
    cases hd
  have hspace : isSpace c = false := by
    simp [isSpace, @hne ' ' (by decide), @hne '\n' (by decide), @hne '\r' (by decide),
      @hne '\t' (by decide)]
  refine ⟨⟨c, more, rfl, hspace, hne (by decide)⟩, fun fuel rest hfuel hrest ↦ ?_⟩
  obtain ⟨fuel, rfl⟩ := exists_eq_succ (Nat.succ_pos _) hfuel
  have htake := Text.takeWhile_append_of_head? hchars hrest
  have hdrop := Text.dropWhile_append_of_head? hchars hrest
  rw [value?, List.cons_append, skipSpace_cons hspace]
  split
  case h_7 =>
    rw [← List.cons_append, htake, hdrop, hvalue]
    rfl
  all_goals
    rename_i heq
    exact absurd (List.cons.inj heq).1 (hne (by decide))

def listed (depth : Nat) (texts : List Text) : Text :=
  Text.join [','] (texts.map fun t ↦ lineStart depth ++ t)

theorem listed_singleton (depth : Nat) (t : Text) : listed depth [t] = lineStart depth ++ t := by
  simp [listed, Text.join]

theorem listed_cons_cons (depth : Nat) (t next : Text) (texts : List Text) :
    listed depth (t :: next :: texts) =
      lineStart depth ++ (t ++ ',' :: listed depth (next :: texts)) := by
  simp [listed, Text.join, List.intercalate_cons_cons]

theorem exists_listed_append (depth : Nat) (t : Text) (texts : List Text) (rest : Text) :
    ∃ more, listed depth (t :: texts) ++ rest = lineStart depth ++ (t ++ more) := by
  cases texts with
  | nil => exact ⟨rest, by rw [listed_singleton, List.append_assoc]⟩
  | cons next texts => exact ⟨_, by rw [listed_cons_cons, List.append_assoc, List.append_assoc]⟩

theorem bracketed_append {texts : List Text} (h : texts ≠ []) (first last : Char) (depth : Nat)
    (rest : Text) :
    bracketed first last depth texts ++ rest =
      first :: (listed (depth + 1) texts ++ (lineStart depth ++ last :: rest)) := by
  simp [bracketed, h, listed]

theorem skipSpace_lineStart (depth : Nat) {c : Char} (h : isSpace c = false) (rest : Text) :
    skipSpace (lineStart depth ++ c :: rest) = c :: rest := by
  rw [skipSpace_append fun _ ↦ isSpace_of_mem_lineStart, skipSpace_cons h]

theorem length_lineStart_pos (depth : Nat) : 0 < (lineStart depth).length := Nat.succ_pos _

theorem isNumberChar_head?_lineStart (depth : Nat) (rest : Text) :
    ∀ c ∈ (lineStart depth ++ rest).head?, isNumberChar c = false := by
  simp [lineStart]
  decide

/-- What reads one item after another reads a list that ends with the bracket `last`. -/
theorem read_listed {α : Type} {read : Nat → Text → Read (List α)} {Reads : Text → α → Prop}
    {last : Char} {depth : Nat} {rest : Text}
    (hlast : ∀ {t a fuel}, Reads t a → t.length ≤ fuel →
      read (fuel + 1) (lineStart (depth + 1) ++ (t ++ (lineStart depth ++ last :: rest))) =
        some ([a], rest))
    (hmore : ∀ {t a fuel} more, Reads t a → t.length ≤ fuel →
      read (fuel + 1) (lineStart (depth + 1) ++ (t ++ ',' :: more)) =
        (read fuel more).map fun (values, after) ↦ (a :: values, after))
    {texts : List Text} {values : List α} (h : List.Forall₂ Reads texts values)
    (hne : texts ≠ []) {fuel : Nat} (hfuel : (listed (depth + 1) texts).length ≤ fuel) :
    read fuel (listed (depth + 1) texts ++ (lineStart depth ++ last :: rest)) =
      some (values, rest) := by
  induction h generalizing fuel with
  | nil => exact absurd rfl hne
  | @cons t value texts values hfirst hlater ih =>
    have hline := length_lineStart_pos (depth + 1)
    cases hlater with
    | nil =>
      rw [listed_singleton, List.length_append] at hfuel
      obtain ⟨fuel, rfl⟩ := exists_eq_succ (by omega) hfuel
      rw [listed_singleton, List.append_assoc, hlast hfirst (by omega)]
    | @cons next _ texts _ hnext hlater =>
      rw [listed_cons_cons, List.length_append, List.length_append, List.length_cons] at hfuel
      obtain ⟨fuel, rfl⟩ := exists_eq_succ (by omega) hfuel
      rw [listed_cons_cons, List.append_assoc, List.append_assoc, List.cons_append,
        hmore _ hfirst (by omega), ih (List.cons_ne_nil _ _) (by omega)]
      rfl

theorem items?_listed {texts : List Text} {values : List Value}
    (h : List.Forall₂ ReadsAs texts values) (hne : texts ≠ []) (depth : Nat) (rest : Text)
    {fuel : Nat} (hfuel : (listed (depth + 1) texts).length ≤ fuel) :
    items? fuel (listed (depth + 1) texts ++ (lineStart depth ++ ']' :: rest)) =
      some (values, rest) := by
  have hspaces : ∀ c ∈ lineStart (depth + 1), isSpace c = true :=
    fun _ ↦ isSpace_of_mem_lineStart
  refine read_listed (fun hread hlength ↦ ?_) (fun more hread hlength ↦ ?_) h hne hfuel
  · rw [items?, hread.value?_append hspaces hlength (isNumberChar_head?_lineStart depth _)]
    simp only [Option.bind_some, skipSpace_lineStart depth (by decide : isSpace ']' = false)]
  · rw [items?, hread.value?_append hspaces hlength (by simp; decide)]
    simp only [Option.bind_some, skipSpace_cons (by decide : isSpace ',' = false)]

def FieldReadsAs (text : Text) (field : Text × Value) : Prop :=
  ∃ t, text = stringText field.1 ++ ": ".toList ++ t ∧ ReadsAs t field.2

theorem FieldReadsAs.exists_cons {field : Text × Value} (h : FieldReadsAs t field) :
    ∃ c more, t = c :: more ∧ isSpace c = false ∧ c ≠ '\x7d' := by
  obtain ⟨t, rfl, -⟩ := h
  exact ⟨'"', _, rfl, by decide, by decide⟩

theorem string?_field (depth : Nat) (key t rest : Text) :
    string? (skipSpace (lineStart depth ++ (stringText key ++ ": ".toList ++ t ++ rest))) =
      some (key, ':' :: ([' '] ++ (t ++ rest))) := by
  have hquote : skipSpace (stringText key ++ (": ".toList ++ (t ++ rest))) =
      stringText key ++ (": ".toList ++ (t ++ rest)) := skipSpace_cons (by decide) _
  rw [skipSpace_append fun _ ↦ isSpace_of_mem_lineStart, List.append_assoc, List.append_assoc,
    hquote, string?_stringText]
  rfl

theorem fields?_listed {texts : List Text} {fields : List (Text × Value)}
    (h : List.Forall₂ FieldReadsAs texts fields) (hne : texts ≠ []) (depth : Nat) (rest : Text)
    {fuel : Nat} (hfuel : (listed (depth + 1) texts).length ≤ fuel) :
    fields? fuel (listed (depth + 1) texts ++ (lineStart depth ++ '\x7d' :: rest)) =
      some (fields, rest) := by
  have hspaces : ∀ c ∈ [' '], isSpace c = true := List.forall_mem_singleton.mpr (by decide)
  refine read_listed ?_ ?_ h hne hfuel
  · rintro _ ⟨key, value⟩ fuel ⟨t, rfl, hread⟩ hlength
    rw [List.length_append] at hlength
    rw [fields?, string?_field]
    simp only [Option.bind_some, skipSpace_cons (by decide : isSpace ':' = false)]
    rw [hread.value?_append hspaces (by omega) (isNumberChar_head?_lineStart depth _)]
    simp only [Option.bind_some, skipSpace_lineStart depth (by decide : isSpace '\x7d' = false)]
  · rintro _ ⟨key, value⟩ fuel more ⟨t, rfl, hread⟩ hlength
    rw [List.length_append] at hlength
    rw [fields?, string?_field]
    simp only [Option.bind_some, skipSpace_cons (by decide : isSpace ':' = false)]
    rw [hread.value?_append hspaces (by omega) (by simp; decide)]
    simp only [Option.bind_some, skipSpace_cons (by decide : isSpace ',' = false)]

theorem exists_bracketed_eq (first last : Char) (depth : Nat) (texts : List Text) :
    ∃ more, bracketed first last depth texts = first :: more := by
  rw [bracketed]
  split
  · exact ⟨[last], rfl⟩
  · exact ⟨_, rfl⟩

theorem length_listed_le {texts : List Text} (h : texts ≠ []) (first last : Char) (depth : Nat) :
    (listed (depth + 1) texts).length + 1 ≤ (bracketed first last depth texts).length := by
  have hsplit := congrArg List.length (bracketed_append h first last depth [])
  simp at hsplit
  omega

theorem value?_array (h : ∀ after, skipSpace t ≠ ']' :: after) (fuel : Nat) :
    value? (fuel + 1) ('[' :: t) =
      (items? fuel t).map fun (items, after) ↦ (.array items, after) := by
  simp only [value?, skipSpace_cons (by decide : isSpace '[' = false)]

theorem value?_object (h : ∀ after, skipSpace t ≠ '\x7d' :: after) (fuel : Nat) :
    value? (fuel + 1) ('\x7b' :: t) =
      (fields? fuel t).map fun (fields, after) ↦ (.object fields, after) := by
  simp only [value?, skipSpace_cons (by decide : isSpace '\x7b' = false)]

theorem skipSpace_listed_ne {last : Char}
    (h : ∃ c more, t = c :: more ∧ isSpace c = false ∧ c ≠ last) (depth : Nat)
    (texts : List Text) (rest after : Text) :
    skipSpace (listed depth (t :: texts) ++ rest) ≠ last :: after := by
  obtain ⟨c, t, rfl, hspace, hne⟩ := h
  obtain ⟨more, hmore⟩ := exists_listed_append depth (c :: t) texts rest
  rw [hmore, List.cons_append, skipSpace_lineStart depth hspace]
  exact fun h ↦ hne (List.cons.inj h).1

/-- A list between brackets is read if its items are read behind one another up to the bracket that
closes it, whichever brackets and items these are. -/
theorem readsAs_bracketed {α : Type} {Reads : Text → α → Prop} {first last : Char}
    {read : Nat → Text → Read (List α)} {make : List α → Value} (hspace : isSpace first = false)
    (hbracket : first ≠ ']')
    (hempty : ∀ fuel rest, value? (fuel + 1) (first :: last :: rest) = some (make [], rest))
    (hopen : ∀ {t}, (∀ after, skipSpace t ≠ last :: after) → ∀ fuel,
      value? (fuel + 1) (first :: t) = (read fuel t).map fun (values, after) ↦ (make values, after))
    (hcons : ∀ {t a}, Reads t a → ∃ c more, t = c :: more ∧ isSpace c = false ∧ c ≠ last)
    (hlisted : ∀ {texts values}, List.Forall₂ Reads texts values → texts ≠ [] →
      ∀ depth rest {fuel}, (listed (depth + 1) texts).length ≤ fuel →
        read fuel (listed (depth + 1) texts ++ (lineStart depth ++ last :: rest)) =
          some (values, rest))
    {texts : List Text} {values : List α} (h : List.Forall₂ Reads texts values) (depth : Nat) :
    ReadsAs (bracketed first last depth texts) (make values) where
  exists_cons := by
    obtain ⟨more, hmore⟩ := exists_bracketed_eq first last depth texts
    exact ⟨first, more, hmore, hspace, hbracket⟩
  value?_eq fuel rest hfuel _ := by
    cases h with
    | nil =>
      obtain ⟨fuel, rfl⟩ := exists_eq_succ (Nat.succ_pos 1) hfuel
      exact hempty fuel rest
    | @cons t _ texts _ hread hlater =>
      have hne := List.cons_ne_nil t texts
      have hlength := length_listed_le hne first last depth
      obtain ⟨fuel, rfl⟩ := exists_eq_succ (by omega) hfuel
      rw [bracketed_append hne, hopen (skipSpace_listed_ne (hcons hread) _ texts _),
        hlisted (.cons hread hlater) hne depth rest (by omega)]
      rfl

theorem readsAs_array {texts : List Text} {values : List Value}
    (h : List.Forall₂ ReadsAs texts values) (depth : Nat) :
    ReadsAs (bracketed '[' ']' depth texts) (.array values) :=
  readsAs_bracketed (by decide) (by decide) (fun _ _ ↦ by rw [value?]; rfl) value?_array
    ReadsAs.exists_cons items?_listed h depth

theorem readsAs_object {texts : List Text} {fields : List (Text × Value)}
    (h : List.Forall₂ FieldReadsAs texts fields) (depth : Nat) :
    ReadsAs (bracketed '\x7b' '\x7d' depth texts) (.object fields) :=
  readsAs_bracketed (by decide) (by decide) (fun _ _ ↦ by rw [value?]; rfl) value?_object
    FieldReadsAs.exists_cons fields?_listed h depth

mutual

def Value.Fits : Value → Prop
  | .integer i => -(Int.pow 2 63) ≤ i ∧ i < Int.pow 2 64
  | .array items => ItemsFit items
  | .object fields => FieldsFit fields
  | _ => True

def Value.ItemsFit : List Value → Prop
  | [] => True
  | value :: rest => value.Fits ∧ ItemsFit rest

def Value.FieldsFit : List (Text × Value) → Prop
  | [] => True
  | (_, value) :: rest => value.Fits ∧ FieldsFit rest

end

mutual

/-- The value as its text gives it back: a float is the number its digits stand for, or null. -/
def Value.reread : Value → Value
  | .float x => (x.json?.bind number?).getD .null
  | .array items => .array (rereadItems items)
  | .object fields => .object (rereadFields fields)
  | value => value

def Value.rereadItems : List Value → List Value
  | [] => []
  | value :: rest => value.reread :: rereadItems rest

def Value.rereadFields : List (Text × Value) → List (Text × Value)
  | [] => []
  | (key, value) :: rest => (key, value.reread) :: rereadFields rest

end

theorem readsAs_signed {unsigned : Text} (h : IsNumeral unsigned) (negative : Bool)
    (hvalue : number? (signed negative unsigned) = some value) :
    ReadsAs (signed negative unsigned) value := by
  have hchars := isNumberChar_of_isNumeral h
  obtain ⟨c, rest, rfl, -⟩ := h.exists_cons
  cases negative with
  | false => exact readsAs_number (List.cons_ne_nil c rest) hchars hvalue
  | true =>
    exact readsAs_number (List.cons_ne_nil '-' (c :: rest))
      (List.forall_mem_cons.mpr ⟨by decide, hchars⟩) hvalue

theorem readsAs_integer {i : Int} (hlow : -(Int.pow 2 63) ≤ i) (hhigh : i < Int.pow 2 64) :
    ReadsAs (Text.ofInt i) (.integer i) := by
  have hvalue := number?_ofInt hlow hhigh
  rw [ofInt_eq_signed] at hvalue ⊢
  exact readsAs_signed (isNumeral_ofNat _) _ hvalue

theorem readsAs_float (x : Binary64) :
    ReadsAs (x.json?.getD "null".toList) (Value.float x).reread := by
  rw [Value.reread]
  cases hx : x.json? with
  | none => exact readsAs_null
  | some t =>
    obtain ⟨negative, unsigned, rfl, hunsigned⟩ := exists_isNumeral_of_json? hx
    obtain ⟨value, hvalue⟩ := exists_number?_signed hunsigned negative
    rw [Option.bind_some, hvalue]
    exact readsAs_signed hunsigned negative hvalue

mutual

theorem readsAs_print {value : Value} (h : value.Fits) (depth : Nat) :
    ReadsAs (print depth value) value.reread := by
  cases value with
  | null => exact readsAs_null
  | boolean b => exact readsAs_boolean b
  | integer i =>
    rw [Value.Fits] at h
    exact readsAs_integer h.1 h.2
  | float x => exact readsAs_float x
  | string t => exact readsAs_stringText t
  | array items => exact readsAs_array (readsAs_printItems h (depth + 1)) depth
  | object fields => exact readsAs_object (readsAs_printFields h (depth + 1)) depth

theorem readsAs_printItems {items : List Value} (h : Value.ItemsFit items) (depth : Nat) :
    List.Forall₂ ReadsAs (printItems depth items) (Value.rereadItems items) := by
  cases items with
  | nil => exact .nil
  | cons value rest => exact .cons (readsAs_print h.1 depth) (readsAs_printItems h.2 depth)

theorem readsAs_printFields {fields : List (Text × Value)} (h : Value.FieldsFit fields)
    (depth : Nat) :
    List.Forall₂ FieldReadsAs (printFields depth fields) (Value.rereadFields fields) := by
  cases fields with
  | nil => exact .nil
  | cons field rest =>
    obtain ⟨key, value⟩ := field
    exact .cons ⟨_, rfl, readsAs_print h.1 depth⟩ (readsAs_printFields h.2 depth)

end

theorem parse?_print {value : Value} (h : value.Fits) :
    parse? (print 0 value) = some value.reread := by
  have hread := (readsAs_print h 0).value?_eq (2 * (print 0 value).length + 2) [] (by omega)
    (by simp)
  rw [List.append_nil] at hread
  rw [parse?, hread]
  rfl

end HeaderStamp.Json
