import HeaderStamp.Text.Basic

namespace HeaderStamp

/-- A floating-point number of 64 bits, as an exact value: the mantissa times the power of two with
the exponent. -/
inductive Binary64
  | nan
  | infinite (negative : Bool)
  | finite (negative : Bool) (mantissa : Nat) (exponent : Int)
deriving DecidableEq, Repr

namespace Binary64

def leastExponent : Int := -1074

def greatestExponent : Int := 971

/-- The quotient rounded to the nearest natural number, ties to the even one. -/
def roundedQuotient (num den : Nat) : Nat :=
  let q := num / den
  let twice := 2 * (num % den)
  if twice < den then q
  else if den < twice then q + 1
  else if q % 2 = 0 then q else q + 1

def scale (base num den : Nat) (exponent : Int) : Nat × Nat :=
  if 0 ≤ exponent then (num * Nat.pow base exponent.toNat, den)
  else (num, den * Nat.pow base (-exponent).toNat)

def exponentOf (num den : Nat) : Int :=
  let guess : Int := (num.log2 : Int) - den.log2 - 52
  let (n, d) := scale 2 num den (-guess)
  let exact := if n / d < Nat.pow 2 52 then guess - 1 else guess
  max exact leastExponent

def ofRatio (negative : Bool) (num den : Nat) : Binary64 :=
  if num = 0 then .finite negative 0 leastExponent
  else
    let exponent := exponentOf num den
    let (n, d) := scale 2 num den (-exponent)
    let mantissa := roundedQuotient n d
    let (mantissa, exponent) :=
      if mantissa = Nat.pow 2 53 then (Nat.pow 2 52, exponent + 1) else (mantissa, exponent)
    if greatestExponent < exponent then .infinite negative else .finite negative mantissa exponent

def ofDecimal (negative : Bool) (digits : Nat) (exponent : Int) : Binary64 :=
  let size : Int := (Text.ofNat digits).length + exponent
  if digits = 0 ∨ size < -400 then .finite negative 0 leastExponent
  else if 400 < size then .infinite negative
  else
    let (num, den) := scale 10 digits 1 exponent
    ofRatio negative num den

/-- So many thousandths: the whole part and the rest are made numbers first and then added. -/
def ofMillis (millis : Nat) : Binary64 :=
  match ofRatio false (millis % 1000) 1000 with
  | .finite _ mantissa exponent =>
    let (num, den) := scale 2 mantissa 1 exponent
    ofRatio false (millis / 1000 * den + num) den
  | x => x

def leadingExponent (num den : Nat) : Int :=
  let guess : Int := (Text.ofNat num).length - (Text.ofNat den).length
  let (n, d) := scale 10 num den (-guess)
  if d ≤ n then guess else guess - 1

/-- The decimal with so many digits that reads back as the number and is nearest to it, if there is
one. -/
def digitsOfLength? (mantissa : Nat) (exponent : Int) (length : Nat) : Option (Nat × Int) :=
  let (num, den) := scale 2 mantissa 1 exponent
  let unit := leadingExponent num den - (length : Int) + 1
  let (n, d) := scale 10 num den (-unit)
  let low := n / d
  let rest := 2 * (n % d)
  let preferHigh := d < rest || (d == rest && low % 2 == 1)
  let readsBack (k : Nat) : Bool := ofDecimal false k unit == .finite false mantissa exponent
  let order := if preferHigh then [low + 1, low] else [low, low + 1]
  (order.find? readsBack).map fun k ↦ (k, unit)

def shortest (mantissa : Nat) (exponent : Int) : Nat × Int :=
  ((List.range 17).findSome? fun k ↦ digitsOfLength? mantissa exponent (k + 1)).getD (mantissa, 0)

def stripZeros : Nat → Nat × Int → Nat × Int
  | 0, decimal => decimal
  | fuel + 1, (digits, exponent) =>
    if digits ≠ 0 ∧ digits % 10 = 0 then stripZeros fuel (digits / 10, exponent + 1)
    else (digits, exponent)

def shortestDigits (mantissa : Nat) (exponent : Int) : Text × Int :=
  let (digits, unit) := stripZeros 20 (shortest mantissa exponent)
  let text := Text.ofNat digits
  (text, unit + (text.length : Int) - 1)

def positional (digits : Text) (leading : Int) : Text :=
  if leading < 0 then
    "0.".toList ++ List.replicate (-leading - 1).toNat '0' ++ digits
  else
    let whole := leading.toNat + 1
    let front := digits.take whole ++ List.replicate (whole - digits.length) '0'
    if digits.length ≤ whole then front else front ++ '.' :: digits.drop whole

def withPoint (t : Text) : Text := if '.' ∈ t then t else t ++ ".0".toList

def signed (negative : Bool) (t : Text) : Text := if negative then '-' :: t else t

def plain : Binary64 → Text
  | .nan => "NaN".toList
  | .infinite negative => signed negative "inf".toList
  | .finite negative 0 _ => signed negative "0.0".toList
  | .finite negative mantissa exponent =>
    let (digits, leading) := shortestDigits mantissa exponent
    signed negative (withPoint (positional digits leading))

def scientific (digits : Text) (leading : Int) : Text :=
  let front :=
    match digits with
    | [] => []
    | [d] => [d]
    | d :: rest => d :: '.' :: rest
  front ++ 'e' :: (if leading < 0 then '-' else '+') :: Text.ofNat leading.natAbs

def json? : Binary64 → Option Text
  | .nan => none
  | .infinite _ => none
  | .finite negative 0 _ => some (signed negative "0.0".toList)
  | .finite negative mantissa exponent =>
    let (digits, leading) := shortestDigits mantissa exponent
    some <| signed negative <|
      if -5 ≤ leading ∧ leading ≤ 15 then withPoint (positional digits leading)
      else scientific digits leading

/-- The number with two places, the exact value rounded half to even. -/
def twoPlaces : Binary64 → Text
  | .nan => "NaN".toList
  | .infinite negative => signed negative "inf".toList
  | .finite negative mantissa exponent =>
    let (num, den) := scale 2 (mantissa * 100) 1 exponent
    let hundredths := roundedQuotient num den
    signed negative
      (Text.ofNat (hundredths / 100) ++
        ['.', Nat.digitChar (hundredths / 10 % 10), Nat.digitChar (hundredths % 10)])

def isDigit (c : Char) : Bool := '0' ≤ c && c ≤ '9'

def digitValue (c : Char) : Nat := c.toNat - '0'.toNat

def natOfDigits (t : Text) : Nat := t.foldl (fun n c ↦ n * 10 + digitValue c) 0

def cutSign : Text → Bool × Text
  | '-' :: rest => (true, rest)
  | '+' :: rest => (false, rest)
  | t => (false, t)

def exponent? (t : Text) : Option Int :=
  let (negative, digits) := cutSign t
  if digits ≠ [] ∧ digits.all isDigit then
    let n : Int := natOfDigits digits
    some (if negative then -n else n)
  else none

def ofUnsigned? (negative : Bool) (t : Text) : Option Binary64 :=
  let whole := t.takeWhile isDigit
  let afterWhole := t.dropWhile isDigit
  let (fraction, rest) :=
    match afterWhole with
    | '.' :: more => (more.takeWhile isDigit, more.dropWhile isDigit)
    | _ => ([], afterWhole)
  let number (shift : Int) :=
    some (ofDecimal negative (natOfDigits (whole ++ fraction)) (shift - (fraction.length : Int)))
  if whole ++ fraction = [] then none
  else
    match rest with
    | [] => number 0
    | e :: more => if e = 'e' ∨ e = 'E' then (exponent? more).bind number else none

def asciiLower (t : Text) : Text := t.map Char.toLower

/-- Reads a number: a sign, then `inf`, `infinity` or `nan` in any case, or a decimal. -/
def ofText? (t : Text) : Option Binary64 :=
  let (negative, rest) := cutSign t
  let word := asciiLower rest
  if word = "inf".toList ∨ word = "infinity".toList then some (.infinite negative)
  else if word = "nan".toList then some .nan
  else ofUnsigned? negative rest

end Binary64

end HeaderStamp
