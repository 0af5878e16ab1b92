import GridClient.Bytes

/-!
# UTF-8 text

Text travels as UTF-8. Decoding either yields the text or says where and why the
bytes stop being UTF-8: a sequence that cannot be continued, given with its
length, or a sequence that the end of the bytes cuts short.
-/

namespace GridClient

def Bytes.ofText (text : String) : Bytes :=
  text.toByteArray.data.toList

namespace Utf8

inductive Fault where
  | invalid (length index : Nat)
  | incomplete (index : Nat)
  deriving DecidableEq, Repr

def Fault.message : Fault → String
  | .invalid length index =>
      s!"invalid utf-8 sequence of {length} bytes from index {index}"
  | .incomplete index =>
      s!"incomplete utf-8 byte sequence from index {index}"

/-- What the front of some bytes is: a sequence of a given length, a bad
sequence of a given length, or a sequence cut short. -/
inductive Front where
  | sequence (length : Nat)
  | bad (length : Nat)
  | cut
  deriving DecidableEq, Repr

def isContinuation (b : UInt8) : Bool :=
  0x80 ≤ b && b ≤ 0xBF

/-- The bytes that may follow a leading byte: they exclude overlong forms,
surrogates and numbers above the last character. -/
def mayFollow (lead second : UInt8) : Bool :=
  if lead == 0xE0 then 0xA0 ≤ second && second ≤ 0xBF
  else if lead == 0xED then 0x80 ≤ second && second ≤ 0x9F
  else if lead == 0xF0 then 0x90 ≤ second && second ≤ 0xBF
  else if lead == 0xF4 then 0x80 ≤ second && second ≤ 0x8F
  else isContinuation second

/-- The length that a leading byte announces, none if no sequence starts with it. -/
def announced (lead : UInt8) : Option Nat :=
  if lead < 0x80 then some 1
  else if 0xC2 ≤ lead && lead ≤ 0xDF then some 2
  else if 0xE0 ≤ lead && lead ≤ 0xEF then some 3
  else if 0xF0 ≤ lead && lead ≤ 0xF4 then some 4
  else none

/-- Checks the continuation bytes from the third on; `seen` bytes are good so far. -/
def checkTail (seen : Nat) : Nat → Bytes → Front
  | 0, _ => .sequence seen
  | _ + 1, [] => .cut
  | n + 1, b :: rest =>
      if isContinuation b then checkTail (seen + 1) n rest else .bad seen

def front (lead : UInt8) (rest : Bytes) : Front :=
  match announced lead with
  | none => .bad 1
  | some 1 => .sequence 1
  | some n =>
      match rest with
      | [] => .cut
      | second :: rest =>
          if mayFollow lead second then checkTail 2 (n - 2) rest else .bad 1

/-- The first fault of some bytes. The first argument bounds the number of
sequences and the second is the place reached. -/
def firstFault : Nat → Nat → Bytes → Option Fault
  | 0, _, _ => none
  | _ + 1, _, [] => none
  | fuel + 1, index, lead :: rest =>
      match front lead rest with
      | .sequence n => firstFault fuel (index + n) (rest.drop (n - 1))
      | .bad n => some (.invalid n index)
      | .cut => some (.incomplete index)

/-- The first fault of some bytes, none for UTF-8. -/
def fault? (bytes : Bytes) : Option Fault :=
  firstFault bytes.length 0 bytes

def decode (bytes : Bytes) : Except Fault String :=
  match String.fromUTF8? bytes.toByteArray with
  | some text => .ok text
  | none => .error ((fault? bytes).getD (.incomplete bytes.length))

/-- Text for bytes that may not be UTF-8: every bad sequence is shown as the
replacement character. The first argument bounds the number of sequences. -/
def lossyChars : Nat → Bytes → List UInt8
  | 0, _ => []
  | _ + 1, [] => []
  | fuel + 1, lead :: rest =>
      match front lead rest with
      | .sequence n => lead :: rest.take (n - 1) ++ lossyChars fuel (rest.drop (n - 1))
      | .bad n => [0xEF, 0xBF, 0xBD] ++ lossyChars fuel (rest.drop (n - 1))
      | .cut => [0xEF, 0xBF, 0xBD]

def lossy (bytes : Bytes) : String :=
  (String.fromUTF8? (lossyChars bytes.length bytes).toByteArray).getD ""

end Utf8
end GridClient
