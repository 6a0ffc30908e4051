import HeaderStamp.Decimal.Binary64
import HeaderStamp.Json.Value

namespace HeaderStamp.Json

abbrev Read (α : Type) := Option (α × Text)

def isSpace (c : Char) : Bool := c = ' ' || c = '\n' || c = '\r' || c = '\t'

def skipSpace (t : Text) : Text := t.dropWhile isSpace

def hexDigit? (c : Char) : Option Nat :=
  if '0' ≤ c ∧ c ≤ '9' then some (c.toNat - 48)
  else if 'a' ≤ c ∧ c ≤ 'f' then some (c.toNat - 87)
  else if 'A' ≤ c ∧ c ≤ 'F' then some (c.toNat - 55)
  else none

def codeUnit? : Text → Option (Nat × Text)
  | a :: b :: c :: d :: rest => do
    let a ← hexDigit? a
    let b ← hexDigit? b
    let c ← hexDigit? c
    let d ← hexDigit? d
    return (((a * 16 + b) * 16 + c) * 16 + d, rest)
  | _ => none

def unicode? (t : Text) : Read Char :=
  (codeUnit? t).bind fun (high, rest) ↦
    if high.isValidChar then some (Char.ofNat high, rest)
    else
      match rest with
      | '\\' :: 'u' :: more =>
        (codeUnit? more).bind fun (low, after) ↦
          if 0xD800 ≤ high ∧ high < 0xDC00 ∧ 0xDC00 ≤ low ∧ low < 0xE000 then
            some (Char.ofNat (0x10000 + (high - 0xD800) * 1024 + (low - 0xDC00)), after)
          else none
      | _ => none

def escape? : Text → Read Char
  | '"' :: rest => some ('"', rest)
  | '\\' :: rest => some ('\\', rest)
  | '/' :: rest => some ('/', rest)
  | 'b' :: rest => some ('\x08', rest)
  | 'f' :: rest => some ('\x0c', rest)
  | 'n' :: rest => some ('\n', rest)
  | 'r' :: rest => some ('\r', rest)
  | 't' :: rest => some ('\t', rest)
  | 'u' :: rest => unicode? rest
  | _ => none

def stringRest? : Nat → Text → Read Text
  | 0, _ => none
  | _ + 1, [] => none
  | fuel + 1, c :: rest =>
    if c = '"' then some ([], rest)
    else if c = '\\' then
      (escape? rest).bind fun (d, after) ↦
        (stringRest? fuel after).map fun (t, last) ↦ (d :: t, last)
    else if c.toNat < 32 then none
    else (stringRest? fuel rest).map fun (t, last) ↦ (c :: t, last)

def string? : Text → Read Text
  | '"' :: rest => stringRest? (rest.length + 1) rest
  | _ => none

def isNumberChar (c : Char) : Bool :=
  Binary64.isDigit c || c = '-' || c = '+' || c = '.' || c = 'e' || c = 'E'

/-- A number begins with a digit, and with a zero only if that is all before the point. -/
def wellFormed (unsigned : Text) : Bool :=
  let whole := unsigned.takeWhile Binary64.isDigit
  let rest := unsigned.drop whole.length
  whole ≠ [] && (whole.head? ≠ some '0' || whole.length = 1) &&
    (match rest with
    | '.' :: more => more.head?.any Binary64.isDigit
    | _ => true)

/-- The value of a number. Whole numbers that no machine word holds are floats. -/
def number? (t : Text) : Option Value :=
  let negative := t.head? = some '-'
  let unsigned := if negative then t.tail else t
  if !wellFormed unsigned then none
  else
    let n : Int := Binary64.natOfDigits unsigned
    let i := if negative then -n else n
    if unsigned.all Binary64.isDigit ∧ -(Int.pow 2 63) ≤ i ∧ i < Int.pow 2 64 ∧
        (i = 0 → !negative) then
      some (.integer i)
    else (Binary64.ofUnsigned? negative unsigned).map Value.float

mutual

def value? : Nat → Text → Read Value
  | 0, _ => none
  | fuel + 1, t =>
    match skipSpace t with
    | '"' :: rest => (string? ('"' :: rest)).map fun (s, after) ↦ (.string s, after)
    | '[' :: rest =>
      match skipSpace rest with
      | ']' :: after => some (.array [], after)
      | _ => (items? fuel rest).map fun (items, after) ↦ (.array items, after)
    | '\x7b' :: rest =>
      match skipSpace rest with
      | '\x7d' :: after => some (.object [], after)
      | _ => (fields? fuel rest).map fun (fields, after) ↦ (.object fields, after)
    | 'n' :: 'u' :: 'l' :: 'l' :: rest => some (.null, rest)
    | 't' :: 'r' :: 'u' :: 'e' :: rest => some (.boolean true, rest)
    | 'f' :: 'a' :: 'l' :: 's' :: 'e' :: rest => some (.boolean false, rest)
    | rest =>
      (number? (rest.takeWhile isNumberChar)).map (·, rest.dropWhile isNumberChar)

def items? : Nat → Text → Read (List Value)
  | 0, _ => none
  | fuel + 1, t =>
    (value? fuel t).bind fun (value, rest) ↦
      match skipSpace rest with
      | ',' :: more => (items? fuel more).map fun (values, after) ↦ (value :: values, after)
      | ']' :: after => some ([value], after)
      | _ => none

def fields? : Nat → Text → Read (List (Text × Value))
  | 0, _ => none
  | fuel + 1, t =>
    (string? (skipSpace t)).bind fun (key, rest) ↦
      match skipSpace rest with
      | ':' :: more =>
        (value? fuel more).bind fun (value, rest) ↦
          match skipSpace rest with
          | ',' :: more =>
            (fields? fuel more).map fun (fields, after) ↦ ((key, value) :: fields, after)
          | '\x7d' :: after => some ([(key, value)], after)
          | _ => none
      | _ => none

end

def parse? (t : Text) : Option Value :=
  (value? (2 * t.length + 2) t).bind fun (value, rest) ↦
    if skipSpace rest = [] then some value else none

end HeaderStamp.Json
