import HeaderStamp.Text.Basic

namespace HeaderStamp

abbrev Bytes := List UInt8

namespace Utf8

def encode (t : Text) : Bytes := t.flatMap String.utf8EncodeChar

/-- What stands at the head of a byte string: a character, bytes that no character starts with, or
the beginning of one that the end of the string cuts off. -/
inductive Chunk
  | char (c : Char) (width : Nat)
  | bad (width : Nat)
  | cut (width : Nat)
deriving DecidableEq, Repr

def Chunk.width : Chunk → Nat
  | .char _ width => width
  | .bad width => width
  | .cut width => width

def isContinuation (b : UInt8) : Bool := 0x80 ≤ b && b ≤ 0xBF

/-- May the byte stand second after this lead byte of a long form? Overlong forms, surrogates and
code points past the last one are refused here. -/
def isSecond (lead second : UInt8) : Bool :=
  if lead = 0xE0 then 0xA0 ≤ second && second ≤ 0xBF
  else if lead = 0xED then 0x80 ≤ second && second ≤ 0x9F
  else if lead = 0xF0 then 0x90 ≤ second && second ≤ 0xBF
  else if lead = 0xF4 then 0x80 ≤ second && second ≤ 0x8F
  else isContinuation second

def payload (b : UInt8) : Nat := b.toNat % 64

def chunkTwo (lead : UInt8) : Bytes → Chunk
  | [] => .cut 1
  | b :: _ =>
    if isContinuation b then .char (Char.ofNat (lead.toNat % 32 * 64 + payload b)) 2 else .bad 1

def chunkThree (lead : UInt8) : Bytes → Chunk
  | [] => .cut 1
  | [b] => if isSecond lead b then .cut 2 else .bad 1
  | b :: c :: _ =>
    if !isSecond lead b then .bad 1
    else if !isContinuation c then .bad 2
    else .char (Char.ofNat ((lead.toNat % 16 * 64 + payload b) * 64 + payload c)) 3

def chunkFour (lead : UInt8) : Bytes → Chunk
  | [] => .cut 1
  | [b] => if isSecond lead b then .cut 2 else .bad 1
  | [b, c] => if !isSecond lead b then .bad 1 else if isContinuation c then .cut 3 else .bad 2
  | b :: c :: d :: _ =>
    if !isSecond lead b then .bad 1
    else if !isContinuation c then .bad 2
    else if !isContinuation d then .bad 3
    else
      let top := lead.toNat % 8 * 64 + payload b
      .char (Char.ofNat ((top * 64 + payload c) * 64 + payload d)) 4

def chunk (lead : UInt8) (rest : Bytes) : Chunk :=
  if lead < 0x80 then .char (Char.ofNat lead.toNat) 1
  else if 0xC2 ≤ lead && lead ≤ 0xDF then chunkTwo lead rest
  else if 0xE0 ≤ lead && lead ≤ 0xEF then chunkThree lead rest
  else if 0xF0 ≤ lead && lead ≤ 0xF4 then chunkFour lead rest
  else .bad 1

/-- The chunks of a byte string, the first bytes of which belong to the chunk before. -/
def chunksAfter : Nat → Bytes → List Chunk
  | _, [] => []
  | skip + 1, _ :: rest => chunksAfter skip rest
  | 0, b :: rest =>
    let c := chunk b rest
    c :: chunksAfter (c.width - 1) rest

def chunks (bytes : Bytes) : List Chunk := chunksAfter 0 bytes

/-- Where a byte string stops being UTF-8: at bytes of no character, or at its end inside one. -/
inductive Fault
  | invalid (width index : Nat)
  | incomplete (index : Nat)
deriving DecidableEq, Repr

def Fault.message : Fault → Text
  | .invalid width index =>
    "invalid utf-8 sequence of ".toList ++ Text.ofNat width ++ " bytes from index ".toList ++
      Text.ofNat index
  | .incomplete index => "incomplete utf-8 byte sequence from index ".toList ++ Text.ofNat index

def collect (index : Nat) : List Chunk → Except Fault Text
  | [] => .ok []
  | .char c width :: rest =>
    match collect (index + width) rest with
    | .ok t => .ok (c :: t)
    | .error fault => .error fault
  | .bad width :: _ => .error (.invalid width index)
  | .cut _ :: _ => .error (.incomplete index)

def decode (bytes : Bytes) : Except Fault Text := collect 0 (chunks bytes)

def decodeLossy (bytes : Bytes) : Text :=
  (chunks bytes).map fun
    | .char c _ => c
    | _ => '\uFFFD'

end Utf8

end HeaderStamp
