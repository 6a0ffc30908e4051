import HeaderStamp.Decimal.Binary64

namespace HeaderStamp.Toml

/-- How a table came to be: by a header of its own, on the way to the table of a header, on the way
of a dotted key, or between braces. -/
inductive Origin
  | header
  | implied
  | dotted
  | inline
deriving DecidableEq, Repr

/-- `tables` are those of one double-bracketed header, and `overflow` is a number that no number
type holds. -/
inductive Value
  | string (t : Text)
  | integer (i : Int)
  | float (x : Binary64)
  | overflow
  | boolean (b : Bool)
  | datetime (t : Text)
  | array (items : List Value)
  | tables (items : List Value)
  | table (origin : Origin) (fields : List (Text × Value))
deriving Inhabited, Repr

abbrev Fields := List (Text × Value)

def Fields.put (key : Text) (value : Value) : Fields → Fields
  | [] => [(key, value)]
  | (k, v) :: rest => if k = key then (key, value) :: rest else (k, v) :: Fields.put key value rest

/-- Steps into a table on the way of a key. Dotted keys open their own kind of table only; headers
open whatever is not closed. -/
def opens (dotted : Bool) : Origin → Bool
  | .header => !dotted
  | .implied => true
  | .dotted => true
  | .inline => false

def newOrigin (dotted : Bool) : Origin := if dotted then .dotted else .implied

/-- Fields changed below a path of keys. Tables that are missing are made on the way; a header goes
through the last of the tables of a double-bracketed one. -/
def descend (dotted : Bool) (change : Origin → Fields → Option Fields) :
    List Text → Origin → Fields → Option Fields
  | [], origin, fields => change origin fields
  | key :: path, _, fields =>
    match fields.lookup key with
    | none =>
      (descend dotted change path (newOrigin dotted) []).map fun inner ↦
        Fields.put key (.table (newOrigin dotted) inner) fields
    | some (.table origin inner) =>
      if opens dotted origin then
        (descend dotted change path origin inner).map fun inner ↦
          Fields.put key (.table origin inner) fields
      else none
    | some (.tables items) =>
      match items.getLast? with
      | some (.table origin inner) =>
        if dotted then none
        else
          (descend dotted change path origin inner).map fun inner ↦
            Fields.put key (.tables (items.dropLast ++ [.table origin inner])) fields
      | _ => none
    | some _ => none

def within (change : Fields → Option Fields) : List Text → Fields → Option Fields
  | [], fields => change fields
  | key :: path, fields =>
    match fields.lookup key with
    | some (.table origin inner) =>
      (within change path inner).map fun inner ↦ Fields.put key (.table origin inner) fields
    | some (.tables items) =>
      match items.getLast? with
      | some (.table origin inner) =>
        (within change path inner).map fun inner ↦
          Fields.put key (.tables (items.dropLast ++ [.table origin inner])) fields
      | _ => none
    | _ => none

/-- A pair put into the table of a dotted key. Each key is set once, and only dotted keys add to the
tables of dotted keys. -/
def addPair (path : List Text) (key : Text) (value : Value) (fields : Fields) : Option Fields :=
  descend true
    (fun origin inner ↦
      if (origin = .dotted) ≠ (path ≠ []) then none
      else if (inner.lookup key).isSome then none
      else some (Fields.put key value inner))
    path .header fields

def openTable (path : List Text) (key : Text) (root : Fields) : Option Fields :=
  descend false
    (fun _ inner ↦
      match inner.lookup key with
      | none => some (Fields.put key (.table .header []) inner)
      | some (.table .implied below) => some (Fields.put key (.table .header below) inner)
      | some _ => none)
    path .header root

def openNext (path : List Text) (key : Text) (root : Fields) : Option Fields :=
  descend false
    (fun _ inner ↦
      match inner.lookup key with
      | none => some (Fields.put key (.tables [.table .header []]) inner)
      | some (.tables items) => some (Fields.put key (.tables (items ++ [.table .header []])) inner)
      | some _ => none)
    path .header root

end HeaderStamp.Toml
