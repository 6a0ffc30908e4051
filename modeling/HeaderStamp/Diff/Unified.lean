import HeaderStamp.Console.Event
import HeaderStamp.Diff.Compact
import HeaderStamp.Diff.Search

namespace HeaderStamp.Diff

structure Stretch where
  kept : Bool
  oldAt : Nat
  oldCount : Nat
  newAt : Nat
  newCount : Nat
deriving DecidableEq, Repr

namespace Stretch

def ofEdit (edit : Edit) : Stretch :=
  ⟨edit.kind = .equal, edit.oldAt, edit.oldCount, edit.newAt, edit.newCount⟩

def oldEnd (s : Stretch) : Nat := s.oldAt + s.oldCount

def newEnd (s : Stretch) : Nat := s.newAt + s.newCount

def dropTop (s : Stretch) (count : Nat) : Stretch :=
  { s with oldAt := s.oldAt + count, oldCount := s.oldCount - count,
           newAt := s.newAt + count, newCount := s.newCount - count }

def keepTop (s : Stretch) (count : Nat) : Stretch :=
  { s with oldCount := min s.oldCount count, newCount := min s.newCount count }

end Stretch

/-- The changes between two equal stretches, while they are collected: the deletions joined into one
and the insertions joined into one. -/
structure Pending where
  deleted : Option Edit
  inserted : Option Edit

namespace Pending

def none : Pending := ⟨Option.none, Option.none⟩

def joined : Option Edit → Edit → Option Edit
  | Option.none, edit => some edit
  | some first, edit => some (first.grow edit.count)

def add (pending : Pending) (edit : Edit) : Pending :=
  match edit.kind with
  | .delete => { pending with deleted := joined pending.deleted edit }
  | _ => { pending with inserted := joined pending.inserted edit }

def stretch (pending : Pending) : List Stretch :=
  match pending.deleted, pending.inserted with
  | Option.none, Option.none => []
  | some d, Option.none => [.ofEdit d]
  | Option.none, some i => [.ofEdit i]
  | some d, some i => [⟨false, d.oldAt, d.oldCount, i.newAt, i.newCount⟩]

end Pending

def stretchesFrom (kept : Option Edit) (pending : Pending) : List Edit → List Stretch
  | [] => (kept.map Stretch.ofEdit).toList ++ pending.stretch
  | edit :: rest =>
    if edit.kind = .equal then
      pending.stretch ++ stretchesFrom (Pending.joined kept edit) .none rest
    else (kept.map Stretch.ofEdit).toList ++ stretchesFrom none (pending.add edit) rest

def stretches (a b : Array Text) : List Stretch :=
  let window : Window := ⟨0, a.size, 0, b.size⟩
  stretchesFrom none .none (compact b (script a b (a.size + b.size + 1) window))

def radius : Nat := 3

def trimFirst : List Stretch → List Stretch
  | [] => []
  | s :: rest => (if s.kept then s.dropTop (s.oldCount - radius) else s) :: rest

def trimLast (all : List Stretch) : List Stretch :=
  match all.getLast? with
  | some s => if s.kept then all.dropLast ++ [s.keepTop radius] else all
  | none => []

def isHunk : List Stretch → Bool
  | [] => false
  | [s] => !s.kept
  | _ => true

def groupFrom (current : List Stretch) : List Stretch → List (List Stretch)
  | [] => if isHunk current then [current] else []
  | s :: rest =>
    if s.kept ∧ 2 * radius < s.oldCount then
      (current ++ [s.keepTop radius]) :: groupFrom [s.dropTop (s.oldCount - radius)] rest
    else groupFrom (current ++ [s]) rest

def hunks (all : List Stretch) : List (List Stretch) := groupFrom [] (trimLast (trimFirst all))

def slice (lines : Array Text) (first count : Nat) : List Text :=
  (lines.extract first (first + count)).toList

def changes (a b : Array Text) (s : Stretch) : List (ChangeKind × Text) :=
  if s.kept then (slice a s.oldAt s.oldCount).map (.kept, ·)
  else
    (slice a s.oldAt s.oldCount).map (.removed, ·) ++ (slice b s.newAt s.newCount).map (.added, ·)

def endsLine (line : Text) : Bool := line.getLast? = some '\n' || line.getLast? = some '\r'

def span (first last : Nat) : Text :=
  let count := last - first
  if count = 1 then Text.ofNat (first + 1)
  else Text.ofNat (if count = 0 then first else first + 1) ++ ',' :: Text.ofNat count

def changeText (change : ChangeKind × Text) : Text :=
  change.1.sign :: change.2 ++
    (if endsLine change.2 then [] else "\n\\ No newline at end of file\n".toList)

def hunkText (a b : Array Text) (hunk : List Stretch) : Text :=
  match hunk.head?, hunk.getLast? with
  | some first, some last =>
    "@@ -".toList ++ span first.oldAt last.oldEnd ++ " +".toList ++ span first.newAt last.newEnd ++
      " @@\n".toList ++ (hunk.flatMap (changes a b)).flatMap changeText
  | _, _ => []

/-- The unified comparison of two texts under a label, empty if they are the same. -/
def unified (label old new : Text) : Text :=
  let a := (tokens old).toArray
  let b := (tokens new).toArray
  match hunks (stretches a b) with
  | [] => []
  | found =>
    "--- a/".toList ++ label ++ "\n+++ b/".toList ++ label ++ '\n' ::
      found.flatMap (hunkText a b)

def allChanges (old new : Text) : List (ChangeKind × Text) :=
  let a := (tokens old).toArray
  let b := (tokens new).toArray
  ((stretches a b).flatMap (changes a b)).map fun (kind, line) ↦
    (kind, if endsLine line then line else line ++ ['\n'])

end HeaderStamp.Diff
