import HeaderStamp.Decimal.Binary64

namespace HeaderStamp.Json

inductive Value
  | null
  | boolean (b : Bool)
  | integer (i : Int)
  | float (x : Binary64)
  | string (t : Text)
  | array (items : List Value)
  | object (fields : List (Text × Value))
deriving Inhabited, Repr

def fourHex (n : Nat) : Text :=
  [Nat.digitChar (n / 4096 % 16), Nat.digitChar (n / 256 % 16), Nat.digitChar (n / 16 % 16),
    Nat.digitChar (n % 16)]

def escapeChar (c : Char) : Text :=
  if c = '"' then ['\\', '"']
  else if c = '\\' then ['\\', '\\']
  else if c = '\x08' then ['\\', 'b']
  else if c = '\x0c' then ['\\', 'f']
  else if c = '\n' then ['\\', 'n']
  else if c = '\r' then ['\\', 'r']
  else if c = '\t' then ['\\', 't']
  else if c.toNat < 32 then '\\' :: 'u' :: fourHex c.toNat
  else [c]

def stringText (t : Text) : Text := '"' :: t.flatMap escapeChar ++ ['"']

def lineStart (depth : Nat) : Text := '\n' :: List.replicate (2 * depth) ' '

def bracketed (first last : Char) (depth : Nat) (items : List Text) : Text :=
  if items = [] then [first, last]
  else
    first :: Text.join [','] (items.map fun item ↦ lineStart (depth + 1) ++ item) ++
      lineStart depth ++ [last]

mutual

/-- The text of a value at a depth of nesting. Numbers that are none are null. -/
def print (depth : Nat) : Value → Text
  | .null => "null".toList
  | .boolean b => (if b then "true" else "false").toList
  | .integer i => Text.ofInt i
  | .float x => x.json?.getD "null".toList
  | .string t => stringText t
  | .array items => bracketed '[' ']' depth (printItems (depth + 1) items)
  | .object fields => bracketed '\x7b' '\x7d' depth (printFields (depth + 1) fields)

def printItems (depth : Nat) : List Value → List Text
  | [] => []
  | value :: rest => print depth value :: printItems depth rest

def printFields (depth : Nat) : List (Text × Value) → List Text
  | [] => []
  | (key, value) :: rest =>
    (stringText key ++ ": ".toList ++ print depth value) :: printFields depth rest

end

end HeaderStamp.Json
