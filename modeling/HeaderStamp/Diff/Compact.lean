import HeaderStamp.Diff.Edit

namespace HeaderStamp.Diff

/-- An edit with those above it, nearest first, and those below it. -/
structure Focus where
  above : List Edit
  edit : Edit
  below : List Edit

def equalBelow (old new count : Nat) : List Edit → List Edit
  | [] => [Edit.equal old new count]
  | next :: rest =>
    if next.kind = .equal then ((next.moveUp count).grow count) :: rest
    else Edit.equal old new count :: next :: rest

def equalAbove (old new count : Nat) : List Edit → List Edit
  | [] => [Edit.equal old new count]
  | last :: rest =>
    if last.kind = .equal then last.grow count :: rest else Edit.equal old new count :: last :: rest

/-- How far the new lines of an insertion repeat the equal lines above it. Deletions stay. -/
def slackUp (b : Array Text) (prev this : Edit) : Nat :=
  if this.kind = .insert then
    commonBehind b b (min prev.newCount this.newCount) prev.newEnd this.newEnd
  else 0

def slackDown (b : Array Text) (next this : Edit) : Nat :=
  if this.kind = .insert then
    commonAhead b b (min next.newCount this.newCount) next.newAt this.newAt
  else 0

/-- Moves an edit up past equal lines, joining edits of its own kind and changing places with those
of the other one. -/
def slideUp (b : Array Text) : Nat → Focus → Focus
  | 0, focus => focus
  | fuel + 1, ⟨above, this, below⟩ =>
    match above with
    | [] => ⟨[], this, below⟩
    | prev :: more =>
      if prev.kind = .equal then
        let slack := slackUp b prev this
        if slack = 0 then
          if prev.isEmpty then slideUp b fuel ⟨more, this, below⟩ else ⟨prev :: more, this, below⟩
        else
          let below := equalBelow (prev.oldEnd - slack) (this.newEnd - slack) slack below
          let prev := prev.shrink slack
          slideUp b fuel
            ⟨if prev.isEmpty then more else prev :: more, this.moveUp slack, below⟩
      else if prev.kind = this.kind then slideUp b fuel ⟨more, prev.grow this.count, below⟩
      else slideUp b fuel ⟨more, this, prev :: below⟩

def slideDown (b : Array Text) : Nat → Focus → Focus
  | 0, focus => focus
  | fuel + 1, ⟨above, this, below⟩ =>
    match below with
    | [] => ⟨above, this, []⟩
    | next :: more =>
      if next.kind = .equal then
        let slack := slackDown b next this
        if slack = 0 then
          if next.isEmpty then slideDown b fuel ⟨above, this, more⟩ else ⟨above, this, next :: more⟩
        else
          let above := equalAbove next.oldAt this.newAt slack above
          let next := (next.moveDown slack).shrink slack
          slideDown b fuel
            ⟨above, this.moveDown slack, if next.isEmpty then more else next :: more⟩
      else if next.kind = this.kind then slideDown b fuel ⟨above, this.grow next.count, more⟩
      else slideDown b fuel ⟨next :: above, this, more⟩

/-- Slides every edit of a kind as far up and then as far down as it goes. -/
def settle (b : Array Text) (kind : EditKind) (patience : Nat) :
    Nat → List Edit → List Edit → List Edit
  | 0, above, below => above.reverse ++ below
  | _ + 1, above, [] => above.reverse
  | fuel + 1, above, edit :: below =>
    if edit.kind = kind then
      let focus := slideDown b patience (slideUp b patience ⟨above, edit, below⟩)
      settle b kind patience fuel (focus.edit :: focus.above) focus.below
    else settle b kind patience fuel (edit :: above) below

def compact (b : Array Text) (edits : List Edit) : List Edit :=
  let patience := 4 * (edits.length + b.size) + 16
  let fuel := patience * patience
  settle b .insert patience fuel [] (settle b .delete patience fuel [] edits)

end HeaderStamp.Diff
