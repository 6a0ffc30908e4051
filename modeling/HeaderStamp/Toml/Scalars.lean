import HeaderStamp.Decimal.Binary64
import HeaderStamp.Toml.Strings
import HeaderStamp.Toml.Value

namespace HeaderStamp.Toml

open Binary64 (isDigit natOfDigits)

def digits? (accepts : Char → Bool) (t : Text) : Option Text :=
  let groups := Text.split '_' t
  if groups.all fun group ↦ group ≠ [] && group.all accepts then some groups.flatten else none

def decimalDigits? (t : Text) : Option Text :=
  (digits? isDigit t).bind fun digits ↦
    if t.head? = some '0' ∧ t.length ≠ 1 then none else some digits

def ofBase? (base : Nat) (t : Text) : Option Int :=
  let accepts (c : Char) : Bool := (hexValue? c).any (· < base)
  (digits? accepts t).map fun digits ↦
    (digits.foldl (fun (n : Nat) c ↦ n * base + (hexValue? c).getD 0) 0 : Nat)

def integer? : Text → Option Int
  | '0' :: 'x' :: rest => ofBase? 16 rest
  | '0' :: 'o' :: rest => ofBase? 8 rest
  | '0' :: 'b' :: rest => ofBase? 2 rest
  | t =>
    let (negative, rest) := cutSign t
    (decimalDigits? rest).map fun digits ↦
      let n : Int := natOfDigits digits
      if negative then -n else n
where
  cutSign := Binary64.cutSign

def isExponentMark (c : Char) : Bool := c = 'e' || c = 'E'

def float? (t : Text) : Option Binary64 :=
  let (negative, rest) := Binary64.cutSign t
  if rest = "inf".toList then some (.infinite negative)
  else if rest = "nan".toList then some .nan
  else
    let front := rest.takeWhile (!isExponentMark ·)
    let power := (rest.dropWhile (!isExponentMark ·)).drop 1
    let hasPower := rest.any isExponentMark
    let exponent? : Option Int :=
      if hasPower then
        let (down, digits) := Binary64.cutSign power
        (digits? isDigit digits).map fun ds ↦
          let n : Int := natOfDigits ds
          if down then -n else n
      else some 0
    let parts? : Option (Text × Text) :=
      match Text.split '.' front with
      | [whole] => if hasPower then (decimalDigits? whole).map (·, []) else none
      | [whole, fraction] =>
        (decimalDigits? whole).bind fun w ↦ (digits? isDigit fraction).map (w, ·)
      | _ => none
    parts?.bind fun (whole, fraction) ↦
      exponent?.map fun exponent ↦
        Binary64.ofDecimal negative (natOfDigits (whole ++ fraction))
          (exponent - (fraction.length : Int))

def daysOfMonth (year month : Nat) : Nat :=
  if month = 2 then
    if year % 4 = 0 ∧ (year % 100 ≠ 0 ∨ year % 400 = 0) then 29 else 28
  else if month = 4 ∨ month = 6 ∨ month = 9 ∨ month = 11 then 30
  else 31

def field? (digits bound : Nat) (t : Text) : Read Nat :=
  let front := t.take digits
  if front.length = digits ∧ front.all isDigit ∧ natOfDigits front ≤ bound then
    some (natOfDigits front, t.drop digits)
  else none

def expect? (c : Char) : Text → Option Text
  | d :: rest => if d = c then some rest else none
  | [] => none

def date? (t : Text) : Option Text := do
  let (year, t) ← field? 4 9999 t
  let t ← expect? '-' t
  let (month, t) ← field? 2 12 t
  let t ← expect? '-' t
  let (day, t) ← field? 2 31 t
  if 1 ≤ month ∧ 1 ≤ day ∧ day ≤ daysOfMonth year month then some t else none

def fraction? : Text → Option Text
  | '.' :: rest =>
    if (rest.takeWhile isDigit) = [] then none else some (rest.dropWhile isDigit)
  | t => some t

def time? (t : Text) : Option Text := do
  let (_, t) ← field? 2 23 t
  let t ← expect? ':' t
  let (_, t) ← field? 2 59 t
  match t with
  | ':' :: rest =>
    let (_, rest) ← field? 2 60 rest
    fraction? rest
  | _ => some t

def isOffset : Text → Bool
  | [] => true
  | ['Z'] => true
  | ['z'] => true
  | sign :: rest =>
    (sign = '+' || sign = '-') &&
      ((do
        let (_, t) ← field? 2 23 rest
        let t ← expect? ':' t
        let (_, t) ← field? 2 59 t
        return t) : Option Text) == some []

def isDatetime (t : Text) : Bool :=
  match date? t with
  | none => time? t == some []
  | some [] => true
  | some (mark :: rest) =>
    (mark = 'T' || mark = 't' || mark = ' ') &&
      match time? rest with
      | some after => isOffset after
      | none => false

def fitsInteger (i : Int) : Bool := -(Int.pow 2 127) ≤ i && i < Int.pow 2 128

def scalar (word : Text) : Option Value :=
  if word = "true".toList then some (.boolean true)
  else if word = "false".toList then some (.boolean false)
  else
    match integer? word with
    | some i => some (if fitsInteger i then .integer i else .overflow)
    | none =>
      match float? word with
      | some (.infinite negative) =>
        if 'n' ∈ word then some (.float (.infinite negative)) else some .overflow
      | some x => some (.float x)
      | none => if isDatetime word then some (.datetime word) else none

def isWordChar (c : Char) : Bool :=
  isDigit c || ('a' ≤ c && c ≤ 'z') || ('A' ≤ c && c ≤ 'Z') ||
    c = '+' || c = '-' || c = '_' || c = '.' || c = ':'

/-- A word and what follows it. A blank between a date and a time belongs to the word. -/
def word (t : Text) : Text × Text :=
  let first := t.takeWhile isWordChar
  let rest := t.dropWhile isWordChar
  match date? first, rest with
  | some [], ' ' :: d :: more =>
    if isDigit d then
      (first ++ ' ' :: (d :: more).takeWhile isWordChar, (d :: more).dropWhile isWordChar)
    else (first, rest)
  | _, _ => (first, rest)

end HeaderStamp.Toml
