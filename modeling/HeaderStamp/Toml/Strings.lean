import HeaderStamp.Text.Basic

namespace HeaderStamp.Toml

abbrev Read (α : Type) := Option (α × Text)

def isControl (c : Char) : Bool := (c.toNat < 32 && c != '\t') || c.toNat == 127

def isBlankChar (c : Char) : Bool := c = ' ' || c = '\t'

def skipBlanks (t : Text) : Text := t.dropWhile isBlankChar

def lineEnd? : Text → Option Text
  | '\n' :: rest => some rest
  | '\r' :: '\n' :: rest => some rest
  | _ => none

def hexValue? (c : Char) : Option Nat :=
  if '0' ≤ c ∧ c ≤ '9' then some (c.toNat - 48)
  else if 'a' ≤ c ∧ c ≤ 'f' then some (c.toNat - 87)
  else if 'A' ≤ c ∧ c ≤ 'F' then some (c.toNat - 55)
  else none

def hexNumber? : Nat → Nat → Text → Read Nat
  | 0, n, t => some (n, t)
  | _ + 1, _, [] => none
  | count + 1, n, c :: rest => (hexValue? c).bind fun d ↦ hexNumber? count (n * 16 + d) rest

def scalar? (n : Nat) : Option Char := if n.isValidChar then some (Char.ofNat n) else none

def codeEscape? (digits : Nat) (t : Text) : Read Char :=
  (hexNumber? digits 0 t).bind fun (n, rest) ↦ (scalar? n).map (·, rest)

def escape? : Text → Read Char
  | 'b' :: rest => some ('\x08', rest)
  | 't' :: rest => some ('\t', rest)
  | 'n' :: rest => some ('\n', rest)
  | 'f' :: rest => some ('\x0c', rest)
  | 'r' :: rest => some ('\r', rest)
  | 'e' :: rest => some ('\x1b', rest)
  | '"' :: rest => some ('"', rest)
  | '\\' :: rest => some ('\\', rest)
  | 'x' :: rest => codeEscape? 2 rest
  | 'u' :: rest => codeEscape? 4 rest
  | 'U' :: rest => codeEscape? 8 rest
  | _ => none

def prepend (head : Text) (read : Read Text) : Read Text :=
  read.map fun (t, rest) ↦ (head ++ t, rest)

def literal? : Text → Read Text
  | [] => none
  | '\'' :: rest => some ([], rest)
  | c :: rest => if isControl c then none else prepend [c] (literal? rest)

def basic? : Nat → Text → Read Text
  | 0, _ => none
  | _ + 1, [] => none
  | _ + 1, '"' :: rest => some ([], rest)
  | fuel + 1, '\\' :: rest => (escape? rest).bind fun (c, after) ↦ prepend [c] (basic? fuel after)
  | fuel + 1, c :: rest => if isControl c then none else prepend [c] (basic? fuel rest)

/-- The end of a string over several lines: three quotes, of which up to two more may stand before
it as text. -/
def closing? (quote : Char) (t : Text) : Read Text :=
  let run := (t.takeWhile (· = quote)).length
  if run < 3 then none
  else some (List.replicate (min run 5 - 3) quote, t.drop (min run 5))

def longLiteral? : Nat → Text → Read Text
  | 0, _ => none
  | _ + 1, [] => none
  | fuel + 1, c :: rest =>
    match closing? '\'' (c :: rest) with
    | some done => some done
    | none =>
      match lineEnd? (c :: rest) with
      | some after => prepend (if c = '\r' then ['\r', '\n'] else ['\n']) (longLiteral? fuel after)
      | none => if isControl c then none else prepend [c] (longLiteral? fuel rest)

def isBlankOrFeed (c : Char) : Bool := isBlankChar c || c = '\n'

def skipSpace : Text → Text
  | '\r' :: '\n' :: rest => skipSpace rest
  | c :: rest => if isBlankOrFeed c then skipSpace rest else c :: rest
  | [] => []

/-- The rest of a string in double quotes over several lines. A backslash at the end of a line takes
away all space after it. -/
def longBasic? : Nat → Text → Read Text
  | 0, _ => none
  | _ + 1, [] => none
  | fuel + 1, c :: rest =>
    match closing? '"' (c :: rest) with
    | some done => some done
    | none =>
      match lineEnd? (c :: rest) with
      | some after => prepend (if c = '\r' then ['\r', '\n'] else ['\n']) (longBasic? fuel after)
      | none =>
        if c = '\\' then
          match lineEnd? (skipBlanks rest) with
          | some after => longBasic? fuel (skipSpace after)
          | none => (escape? rest).bind fun (d, after) ↦ prepend [d] (longBasic? fuel after)
        else if isControl c then none
        else prepend [c] (longBasic? fuel rest)

/-- A line end right after the opening quotes does not count. -/
def dropFirstLineEnd (t : Text) : Text := (lineEnd? t).getD t

def shortString? : Text → Read Text
  | '"' :: rest => basic? (rest.length + 1) rest
  | '\'' :: rest => literal? rest
  | _ => none

def string? : Text → Read Text
  | '"' :: '"' :: '"' :: rest => longBasic? (rest.length + 1) (dropFirstLineEnd rest)
  | '\'' :: '\'' :: '\'' :: rest => longLiteral? (rest.length + 1) (dropFirstLineEnd rest)
  | t => shortString? t

end HeaderStamp.Toml
