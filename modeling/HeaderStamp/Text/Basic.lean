namespace HeaderStamp

/-- Texts are lists of characters, so every operation on them is a recursion on a list. -/
abbrev Text := List Char

namespace Text

def isSpace (c : Char) : Bool :=
  let n := c.toNat
  (9 ≤ n && n ≤ 13) || n == 32 || n == 0x85 || n == 0xA0 || n == 0x1680 ||
    (0x2000 ≤ n && n ≤ 0x200A) || n == 0x2028 || n == 0x2029 || n == 0x202F || n == 0x205F ||
    n == 0x3000

def trimStart (t : Text) : Text := t.dropWhile isSpace

def trimEnd (t : Text) : Text := (t.reverse.dropWhile isSpace).reverse

def trim (t : Text) : Text := trimEnd (trimStart t)

def isBlank (t : Text) : Bool := t.all isSpace

/-- The pieces between the separators; there is always at least one. -/
def split (separator : Char) : Text → List Text
  | [] => [[]]
  | c :: rest =>
    if c = separator then [] :: split separator rest
    else
      match split separator rest with
      | [] => [[c]]
      | piece :: pieces => (c :: piece) :: pieces

def join (separator : Text) (pieces : List Text) : Text := separator.intercalate pieces

def replaceChar (old : Char) (new : Text) (t : Text) : Text :=
  t.flatMap fun c ↦ if c = old then new else [c]

def dropStart? : Text → Text → Option Text
  | [], t => some t
  | _ :: _, [] => none
  | a :: start, b :: t => if a = b then dropStart? start t else none

def dropEnding? (ending t : Text) : Option Text :=
  (dropStart? ending.reverse t.reverse).map List.reverse

def occursIn (needle : Text) : Text → Bool
  | [] => needle.isEmpty
  | c :: rest => needle.isPrefixOf (c :: rest) || occursIn needle rest

def dropLeadingPairs (a b : Char) : Text → Text
  | c :: d :: rest => if c = a ∧ d = b then dropLeadingPairs a b rest else c :: d :: rest
  | t => t

/-- Order by code points, which is also the order of the UTF-8 bytes. -/
def le : Text → Text → Bool
  | [], _ => true
  | _ :: _, [] => false
  | a :: as, b :: bs => if a = b then le as bs else a.toNat < b.toNat

def ofNat (n : Nat) : Text := Nat.toDigits 10 n

def ofInt (i : Int) : Text :=
  if i < 0 then '-' :: ofNat i.natAbs else ofNat i.natAbs

def inRanges (ranges : List (Nat × Nat)) (n : Nat) : Bool :=
  ranges.any fun range ↦ range.1 ≤ n && n ≤ range.2

/-- A line without one carriage return at its end. -/
def dropReturn (line : Text) : Text :=
  if line.getLast? = some '\r' then line.dropLast else line

def linesOfPieces : List Text → List Text
  | [] => []
  | [last] => if last.isEmpty then [] else [last]
  | piece :: next :: pieces => dropReturn piece :: linesOfPieces (next :: pieces)

/-- The lines of a text. A line ends at a line feed, which it loses together with one carriage
return before it; a last line without a line feed is kept as it stands. -/
def lines (t : Text) : List Text := linesOfPieces (split '\n' t)

def unlines (terminator : Text) (ls : List Text) : Text := ls.flatMap (· ++ terminator)

end Text

end HeaderStamp
