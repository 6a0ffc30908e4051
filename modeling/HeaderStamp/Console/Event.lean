import HeaderStamp.Console.Filter

namespace HeaderStamp

inductive ChangeKind
  | removed
  | added
  | kept
deriving DecidableEq, Repr

def ChangeKind.sign : ChangeKind → Char
  | .removed => '-'
  | .added => '+'
  | .kept => ' '

/-- Something that happens in a run and that may be shown: details to verbose runs, notices to all
but quiet ones. -/
inductive Event
  | detail (message : Text)
  | notice (message : Text)
  | log (level : Level) (topic : Topic) (message : Text)
  | comparison (path : Text) (lines : List (ChangeKind × Text))
deriving DecidableEq, Repr

inductive Stream
  | out
  | err
deriving DecidableEq, Repr

structure Output where
  stream : Stream
  text : Text
deriving DecidableEq, Repr

inductive Mode
  | normal
  | quiet
  | verbose
deriving DecidableEq, Repr

structure Console where
  mode : Mode
  filter : Filter
  outColors : Bool
  errColors : Bool
deriving DecidableEq, Repr

inductive Style
  | red
  | green
  | yellow
  | cyan
  | bold
  | dimmed
deriving DecidableEq, Repr

def Style.codes : Style → Nat × Nat
  | .red => (31, 39)
  | .green => (32, 39)
  | .yellow => (33, 39)
  | .cyan => (36, 39)
  | .bold => (1, 0)
  | .dimmed => (2, 0)

def escapeCode (n : Nat) : Text := '\x1b' :: '[' :: Text.ofNat n ++ ['m']

namespace Console

def colored (console : Console) : Stream → Bool
  | .out => console.outColors
  | .err => console.errColors

def styled (console : Console) (stream : Stream) (style : Style) (t : Text) : Text :=
  if console.colored stream then escapeCode style.codes.1 ++ t ++ escapeCode style.codes.2 else t

def line (stream : Stream) (t : Text) : Output := ⟨stream, t ++ ['\n']⟩

def isQuiet (console : Console) : Bool := console.mode = .quiet

def isVerbose (console : Console) : Bool := console.mode = .verbose

def levelColor : Level → Nat
  | .error => 31
  | .warn => 33
  | .info => 32
  | .debug => 34
  | .trace => 35

def levelName : Level → Text
  | .error => "ERROR".toList
  | .warn => " WARN".toList
  | .info => " INFO".toList
  | .debug => "DEBUG".toList
  | .trace => "TRACE".toList

def twoHex (n : Nat) : Text := [Nat.digitChar (n / 16), Nat.digitChar (n % 16)]

/-- Control characters that a terminal would obey, made visible. -/
def harmless (c : Char) : Text :=
  let n := c.toNat
  if n = 7 ∨ n = 8 ∨ n = 12 ∨ n = 27 ∨ n = 127 then '\\' :: 'x' :: twoHex n
  else if 0x80 ≤ n ∧ n ≤ 0x9F then '\\' :: 'u' :: '\x7b' :: twoHex n ++ ['\x7d']
  else [c]

def logLine (level : Level) (message : Text) : Text :=
  escapeCode (levelColor level) ++ levelName level ++ escapeCode 0 ++ ' ' :: message.flatMap harmless

def comparisonLine (console : Console) (change : ChangeKind × Text) : Output :=
  let shown := change.1.sign :: change.2
  match change.1 with
  | .added => ⟨.err, console.styled .err .green shown⟩
  | .removed => ⟨.err, console.styled .err .red shown⟩
  | .kept => ⟨.err, shown⟩

def display (console : Console) : Event → List Output
  | .detail message => if console.isVerbose then [line .err message] else []
  | .notice message =>
    if console.isQuiet then [] else [line .out (console.styled .out .yellow message)]
  | .log level topic message =>
    if console.filter.passes level topic then [line .err (logLine level message)] else []
  | .comparison path lines =>
    line .err (console.styled .err .bold ("Diff for ".toList ++ path ++ [':'])) ::
      lines.map console.comparisonLine ++ [line .err []]

def showAll (console : Console) (events : List Event) : List Output :=
  events.flatMap console.display

end Console

end HeaderStamp
