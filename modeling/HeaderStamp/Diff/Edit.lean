import HeaderStamp.Text.Basic

namespace HeaderStamp.Diff

inductive EditKind
  | equal
  | delete
  | insert
deriving DecidableEq, Repr

/-- One step of an edit script: lines of the old text from a position on, for lines of the new one. -/
structure Edit where
  kind : EditKind
  oldAt : Nat
  oldCount : Nat
  newAt : Nat
  newCount : Nat
deriving DecidableEq, Repr

namespace Edit

def equal (oldAt newAt count : Nat) : Edit := ⟨.equal, oldAt, count, newAt, count⟩

def delete (oldAt newAt count : Nat) : Edit := ⟨.delete, oldAt, count, newAt, 0⟩

def insert (oldAt newAt count : Nat) : Edit := ⟨.insert, oldAt, 0, newAt, count⟩

def oldEnd (edit : Edit) : Nat := edit.oldAt + edit.oldCount

def newEnd (edit : Edit) : Nat := edit.newAt + edit.newCount

def isEmpty (edit : Edit) : Bool := edit.oldCount = 0 && edit.newCount = 0

def grow (edit : Edit) (count : Nat) : Edit :=
  match edit.kind with
  | .equal => { edit with oldCount := edit.oldCount + count, newCount := edit.newCount + count }
  | .delete => { edit with oldCount := edit.oldCount + count }
  | .insert => { edit with newCount := edit.newCount + count }

def shrink (edit : Edit) (count : Nat) : Edit :=
  match edit.kind with
  | .equal => { edit with oldCount := edit.oldCount - count, newCount := edit.newCount - count }
  | .delete => { edit with oldCount := edit.oldCount - count }
  | .insert => { edit with newCount := edit.newCount - count }

def moveDown (edit : Edit) (count : Nat) : Edit :=
  { edit with oldAt := edit.oldAt + count, newAt := edit.newAt + count }

def moveUp (edit : Edit) (count : Nat) : Edit :=
  { edit with oldAt := edit.oldAt - count, newAt := edit.newAt - count }

def count (edit : Edit) : Nat :=
  match edit.kind with
  | .insert => edit.newCount
  | _ => edit.oldCount

end Edit

/-- The lines of a text with their ends. A line ends with a line feed, a carriage return or both. -/
def tokens : Text → List Text
  | [] => []
  | '\r' :: '\n' :: rest => ['\r', '\n'] :: tokens rest
  | c :: rest =>
    if c = '\n' ∨ c = '\r' then [c] :: tokens rest
    else
      match rest, tokens rest with
      | [], _ => [[c]]
      | _, [] => [[c]]
      | _, line :: lines => (c :: line) :: lines

def commonAhead (a b : Array Text) : Nat → Nat → Nat → Nat
  | 0, _, _ => 0
  | limit + 1, i, j =>
    match a[i]?, b[j]? with
    | some x, some y => if x = y then commonAhead a b limit (i + 1) (j + 1) + 1 else 0
    | _, _ => 0

def commonBehind (a b : Array Text) : Nat → Nat → Nat → Nat
  | 0, _, _ => 0
  | limit + 1, i, j =>
    match i, j with
    | i + 1, j + 1 =>
      match a[i]?, b[j]? with
      | some x, some y => if x = y then commonBehind a b limit i j + 1 else 0
      | _, _ => 0
    | _, _ => 0

end HeaderStamp.Diff
