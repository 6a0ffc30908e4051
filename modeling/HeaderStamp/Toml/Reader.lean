import HeaderStamp.Toml.Scalars
import HeaderStamp.Toml.Value

namespace HeaderStamp.Toml

def isBareChar (c : Char) : Bool :=
  Binary64.isDigit c || ('a' ≤ c && c ≤ 'z') || ('A' ≤ c && c ≤ 'Z') || c = '_' || c = '-'

def simpleKey? (t : Text) : Read Text :=
  let bare := t.takeWhile isBareChar
  if bare = [] then shortString? t else some (bare, t.dropWhile isBareChar)

def key? : Nat → Text → Read (List Text)
  | 0, _ => none
  | fuel + 1, t =>
    (simpleKey? (skipBlanks t)).bind fun (part, rest) ↦
      match skipBlanks rest with
      | '.' :: more => (key? fuel more).map fun (parts, after) ↦ (part :: parts, after)
      | after => some ([part], after)

def skipComment? : Text → Option Text
  | '#' :: rest =>
    let comment := rest.takeWhile fun c ↦ c != '\n'
    let body := if comment.getLast? = some '\r' then comment.dropLast else comment
    if body.any isControl then none
    else some (rest.drop body.length)
  | t => some t

def skipGap? : Nat → Text → Option Text
  | 0, _ => none
  | fuel + 1, t =>
    match skipBlanks t with
    | '#' :: rest => (skipComment? ('#' :: rest)).bind (skipGap? fuel)
    | after =>
      match lineEnd? after with
      | some next => skipGap? fuel next
      | none => some after

mutual

def value? : Nat → Text → Read Value
  | 0, _ => none
  | fuel + 1, t =>
    match t with
    | '[' :: rest => items? fuel [] rest
    | '\x7b' :: rest => pairs? fuel [] rest
    | '"' :: _ => (string? t).map fun (s, rest) ↦ (.string s, rest)
    | '\'' :: _ => (string? t).map fun (s, rest) ↦ (.string s, rest)
    | _ =>
      let (front, rest) := word t
      (scalar front).map (·, rest)

def items? : Nat → List Value → Text → Read Value
  | 0, _, _ => none
  | fuel + 1, done, t =>
    (skipGap? (t.length + 1) t).bind fun t ↦
      match t with
      | ']' :: rest => some (.array done, rest)
      | _ =>
        (value? fuel t).bind fun (value, rest) ↦
          (skipGap? (rest.length + 1) rest).bind fun rest ↦
            match rest with
            | ',' :: more => items? fuel (done ++ [value]) more
            | ']' :: after => some (.array (done ++ [value]), after)
            | _ => none

def pairs? : Nat → Fields → Text → Read Value
  | 0, _, _ => none
  | fuel + 1, done, t =>
    (skipGap? (t.length + 1) t).bind fun t ↦
      match t with
      | '\x7d' :: rest => some (.table .inline done, rest)
      | _ =>
        (pair? fuel t).bind fun ((path, key, value), rest) ↦
          (addPair path key value done).bind fun fields ↦
            (skipGap? (rest.length + 1) rest).bind fun rest ↦
              match rest with
              | ',' :: more => pairs? fuel fields more
              | '\x7d' :: after => some (.table .inline fields, after)
              | _ => none

def pair? : Nat → Text → Read (List Text × Text × Value)
  | 0, _ => none
  | fuel + 1, t =>
    (key? (t.length + 1) t).bind fun (parts, rest) ↦
      match rest, parts.getLast? with
      | '=' :: more, some key =>
        (value? fuel (skipBlanks more)).map fun (value, after) ↦
          ((parts.dropLast, key, value), after)
      | _, _ => none

end

/-- A document as far as it is read: its tables and the path of the last header. -/
structure Draft where
  fields : Fields
  header : List Text

def endLine? (t : Text) : Option Text :=
  (skipComment? (skipBlanks t)).bind fun rest ↦
    match rest with
    | [] => some []
    | _ => lineEnd? rest

def headerPath? (close : Text) (t : Text) : Read (List Text × Text) :=
  (key? (t.length + 1) t).bind fun (parts, rest) ↦
    (Text.dropStart? close rest).bind fun after ↦
      parts.getLast?.map fun key ↦ ((parts.dropLast, key), after)

def expression? (draft : Draft) (t : Text) : Read Draft :=
  match t with
  | '[' :: '[' :: rest =>
    (headerPath? "]]".toList rest).bind fun ((path, key), after) ↦
      (openNext path key draft.fields).map fun fields ↦ (⟨fields, path ++ [key]⟩, after)
  | '[' :: rest =>
    (headerPath? "]".toList rest).bind fun ((path, key), after) ↦
      (openTable path key draft.fields).map fun fields ↦ (⟨fields, path ++ [key]⟩, after)
  | _ =>
    (pair? (2 * t.length + 2) t).bind fun ((path, key, value), after) ↦
      (within (addPair path key value) draft.header draft.fields).map fun fields ↦
        ({ draft with fields }, after)

def document? : Nat → Draft → Text → Option Fields
  | 0, _, _ => none
  | fuel + 1, draft, t =>
    match skipBlanks t with
    | [] => some draft.fields
    | start =>
      match endLine? start with
      | some next => document? fuel draft next
      | none =>
        (expression? draft start).bind fun (draft, after) ↦
          (endLine? after).bind fun next ↦ document? fuel draft next

def dropByteOrderMark : Text → Text
  | '\uFEFF' :: rest => rest
  | t => t

def read? (t : Text) : Option Fields :=
  let body := dropByteOrderMark t
  document? (body.length + 1) ⟨[], []⟩ body

end HeaderStamp.Toml
