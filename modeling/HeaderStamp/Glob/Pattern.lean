import HeaderStamp.Text.Basic

namespace HeaderStamp.Glob

inductive Member
  | single (c : Char)
  | range (first last : Char)
deriving DecidableEq, Repr

def Member.contains (c : Char) : Member → Bool
  | .single d => c = d
  | .range first last => first ≤ c && c ≤ last

inductive Token
  | char (c : Char)
  | anyChar
  | anyRun
  | anyFolders
  | oneOf (members : List Member)
  | noneOf (members : List Member)
deriving DecidableEq, Repr

inductive Complaint
  | wildcards
  | recursion
  | range
deriving DecidableEq, Repr

structure PatternError where
  position : Nat
  complaint : Complaint
deriving DecidableEq, Repr

def Complaint.text : Complaint → Text
  | .wildcards => "wildcards are either regular \x60*\x60 or recursive \x60**\x60".toList
  | .recursion => "recursive wildcards must form a single path component".toList
  | .range => "invalid range pattern".toList

def PatternError.message (error : PatternError) : Text :=
  "Pattern syntax error near position ".toList ++ Text.ofNat error.position ++ ": ".toList ++
    error.complaint.text

abbrev Pattern := List Token

def members : Text → List Member
  | first :: '-' :: last :: rest => .range first last :: members rest
  | c :: rest => .single c :: members rest
  | [] => []

/-- The set after an opening bracket, and what follows its closing one. The first character of a set
is a member whatever it is. -/
def set? : Text → Option (Token × Text)
  | '!' :: c :: rest =>
    if ']' ∈ rest then
      some (.noneOf (members (c :: rest.takeWhile (· ≠ ']'))), (rest.dropWhile (· ≠ ']')).tail)
    else none
  | '!' :: [] => none
  | c :: rest =>
    if ']' ∈ rest then
      some (.oneOf (members (c :: rest.takeWhile (· ≠ ']'))), (rest.dropWhile (· ≠ ']')).tail)
    else none
  | [] => none

/-- The tokens so far, latest first, with one more wildcard for directories unless the last of
several tokens is one already. -/
def withFolders (done : List Token) : List Token :=
  match done with
  | .anyFolders :: _ :: _ => done
  | _ => .anyFolders :: done

/-- Reads the rest of a pattern. The character before it and its position are given, and the tokens
so far, latest first. -/
def parseFrom : Nat → Option Char → Nat → List Token → Text → Except PatternError Pattern
  | 0, _, _, done, _ => .ok done.reverse
  | _ + 1, _, _, done, [] => .ok done.reverse
  | fuel + 1, before, position, done, c :: rest =>
    if c = '?' then parseFrom fuel (some c) (position + 1) (.anyChar :: done) rest
    else if c = '*' then
      let stars := 1 + (rest.takeWhile (· = '*')).length
      let after := rest.dropWhile (· = '*')
      if 2 < stars then .error ⟨position + 2, .wildcards⟩
      else if stars = 1 then parseFrom fuel (some c) (position + 1) (.anyRun :: done) after
      else if before.any (· ≠ '/') then .error ⟨position - 1, .recursion⟩
      else
        match after with
        | [] => parseFrom fuel (some c) (position + 2) (withFolders done) []
        | '/' :: more => parseFrom fuel (some '/') (position + 3) (withFolders done) more
        | _ => .error ⟨position + 2, .recursion⟩
    else if c = '[' then
      match set? rest with
      | none => .error ⟨position, .range⟩
      | some (token, after) =>
        parseFrom fuel (some ']') (position + 1 + (rest.length - after.length)) (token :: done) after
    else parseFrom fuel (some c) (position + 1) (.char c :: done) rest

def parse (t : Text) : Except PatternError Pattern := parseFrom (t.length + 1) none 0 [] t

def suffixes : Text → List Text
  | [] => [[]]
  | c :: rest => (c :: rest) :: suffixes rest

def afterSlashes : Text → List Text
  | [] => []
  | c :: rest => if c = '/' then rest :: afterSlashes rest else afterSlashes rest

def tokenAccepts (token : Token) (c : Char) : Bool :=
  match token with
  | .char d => c = d
  | .anyChar => true
  | .oneOf set => set.any (Member.contains c)
  | .noneOf set => !set.any (Member.contains c)
  | _ => false

/-- Does the pattern describe the whole text? Wildcards pass over slashes, too. -/
def accepts : Pattern → Text → Bool
  | [], t => t.isEmpty
  | .anyRun :: pattern, t => (suffixes t).any (accepts pattern)
  | .anyFolders :: pattern, t =>
    accepts pattern t || (afterSlashes t).any (accepts pattern) || accepts pattern []
  | _ :: _, [] => false
  | token :: pattern, c :: t => tokenAccepts token c && accepts pattern t

def literal? : Pattern → Option Text
  | [] => some []
  | .char c :: pattern => (literal? pattern).map (c :: ·)
  | _ => none

def isRecursive (pattern : Pattern) : Bool := pattern.contains .anyFolders

end HeaderStamp.Glob
