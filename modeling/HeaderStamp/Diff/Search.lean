import HeaderStamp.Diff.Edit

namespace HeaderStamp.Diff

structure Window where
  oldFrom : Nat
  oldTo : Nat
  newFrom : Nat
  newTo : Nat

namespace Window

def oldCount (w : Window) : Nat := w.oldTo - w.oldFrom

def newCount (w : Window) : Nat := w.newTo - w.newFrom

def difference (w : Window) : Int := (w.oldCount : Int) - w.newCount

def rounds (w : Window) : Nat := (w.oldCount + w.newCount + 1) / 2 + 1

end Window

/-- The furthest old line reached on each diagonal. -/
structure Reach where
  offset : Nat
  cells : Array Nat

namespace Reach

def start (w : Window) : Reach := ⟨w.rounds + 1, Array.replicate (2 * w.rounds + 4) 0⟩

def get (r : Reach) (k : Int) : Nat := r.cells.getD (k + r.offset).toNat 0

def set (r : Reach) (k : Int) (x : Nat) : Reach :=
  { r with cells := r.cells.setIfInBounds (k + r.offset).toNat x }

/-- Where the next step on a diagonal sets out: from the neighbour that is further on. -/
def entry (r : Reach) (d : Nat) (k : Int) : Nat :=
  if k = -(d : Int) ∨ (k ≠ d ∧ r.get (k - 1) < r.get (k + 1)) then r.get (k + 1)
  else r.get (k - 1) + 1

end Reach

def diagonals (d : Nat) : List Int :=
  (List.range (d + 1)).map fun (i : Nat) ↦ (d : Int) - 2 * (i : Int)

inductive Sweep
  | goOn (reach : Reach)
  | met (old new : Nat)

def sweepDown (a b : Array Text) (w : Window) (d : Nat) (other : Reach) :
    Reach → List Int → Sweep
  | reach, [] => .goOn reach
  | reach, k :: rest =>
    let x := reach.entry d k
    let y := ((x : Int) - k).toNat
    let slide :=
      if x < w.oldCount ∧ y < w.newCount then
        commonAhead a b (min (w.oldCount - x) (w.newCount - y)) (w.oldFrom + x) (w.newFrom + y)
      else 0
    let reach := reach.set k (x + slide)
    let turned := w.difference - k
    if w.difference % 2 ≠ 0 ∧ turned.natAbs + 1 ≤ d ∧ w.oldCount ≤ x + slide + other.get turned then
      .met (w.oldFrom + x) (w.newFrom + y)
    else sweepDown a b w d other reach rest

def sweepUp (a b : Array Text) (w : Window) (d : Nat) (other : Reach) :
    Reach → List Int → Sweep
  | reach, [] => .goOn reach
  | reach, k :: rest =>
    let x := reach.entry d k
    let y := ((x : Int) - k).toNat
    let slide :=
      if x < w.oldCount ∧ y < w.newCount then
        commonBehind a b (min (w.oldCount - x) (w.newCount - y)) (w.oldTo - x) (w.newTo - y)
      else 0
    let reach := reach.set k (x + slide)
    let turned := w.difference - k
    if w.difference % 2 = 0 ∧ turned.natAbs ≤ d ∧ w.oldCount ≤ x + slide + other.get turned then
      .met (w.oldTo - (x + slide)) (w.newTo - (y + slide))
    else sweepUp a b w d other reach rest

def meet? (a b : Array Text) (w : Window) : Nat → Nat → Reach → Reach → Option (Nat × Nat)
  | 0, _, _, _ => none
  | fuel + 1, d, down, up =>
    match sweepDown a b w d up down (diagonals d) with
    | .met x y => some (x, y)
    | .goOn down =>
      match sweepUp a b w d down up (diagonals d) with
      | .met x y => some (x, y)
      | .goOn up => meet? a b w fuel (d + 1) down up

/-- An edit script for a window: what agrees at both ends stays, and the rest is cut in two where
the searches meet. -/
def script (a b : Array Text) : Nat → Window → List Edit
  | 0, w => [.delete w.oldFrom w.newFrom w.oldCount, .insert w.oldTo w.newFrom w.newCount]
  | fuel + 1, w =>
    let front := commonAhead a b (min w.oldCount w.newCount) w.oldFrom w.newFrom
    let oldFrom := w.oldFrom + front
    let newFrom := w.newFrom + front
    let back := commonBehind a b (min (w.oldTo - oldFrom) (w.newTo - newFrom)) w.oldTo w.newTo
    let inner : Window := ⟨oldFrom, w.oldTo - back, newFrom, w.newTo - back⟩
    let middle :=
      if inner.oldCount = 0 ∧ inner.newCount = 0 then []
      else if inner.newCount = 0 then [.delete oldFrom newFrom inner.oldCount]
      else if inner.oldCount = 0 then [.insert oldFrom newFrom inner.newCount]
      else
        match meet? a b inner inner.rounds 0 (Reach.start inner) (Reach.start inner) with
        | some (x, y) =>
          script a b fuel ⟨inner.oldFrom, x, inner.newFrom, y⟩ ++
            script a b fuel ⟨x, inner.oldTo, y, inner.newTo⟩
        | none =>
          [.delete oldFrom newFrom inner.oldCount, .insert inner.oldTo newFrom inner.newCount]
    (if front = 0 then [] else [Edit.equal w.oldFrom w.newFrom front]) ++ middle ++
      (if back = 0 then [] else [Edit.equal inner.oldTo inner.newTo back])

end HeaderStamp.Diff
