/-!
# Bytes

Frames, keys and values are lists of bytes. This module holds the fixed-width
big-endian words that frames are made of, and the way a single byte is shown in
a message.
-/

namespace GridClient

abbrev Bytes := List UInt8

namespace Bytes

/-!
# Big-endian words
-/

def ofUInt16 (n : UInt16) : Bytes :=
  [(n >>> 8).toUInt8, n.toUInt8]

def ofUInt32 (n : UInt32) : Bytes :=
  [(n >>> 24).toUInt8, (n >>> 16).toUInt8, (n >>> 8).toUInt8, n.toUInt8]

def ofUInt64 (n : UInt64) : Bytes :=
  ofUInt32 (n >>> 32).toUInt32 ++ ofUInt32 n.toUInt32

/-- The number whose base-256 digits, most significant first, are the bytes. -/
def toNat (bytes : Bytes) : Nat :=
  bytes.foldl (fun n b => n * 256 + b.toNat) 0

@[simp] theorem length_ofUInt16 (n : UInt16) : (ofUInt16 n).length = 2 :=
  rfl

@[simp] theorem length_ofUInt32 (n : UInt32) : (ofUInt32 n).length = 4 :=
  rfl

@[simp] theorem length_ofUInt64 (n : UInt64) : (ofUInt64 n).length = 8 :=
  rfl

/-!
# Order
-/

/-- Byte strings are ordered like words in a dictionary. -/
def before : Bytes → Bytes → Bool
  | [], _ => true
  | _ :: _, [] => false
  | a :: as, b :: bs => a < b || (a == b && before as bs)

end Bytes

/-!
# Bytes in messages
-/

def hexByte (b : UInt8) : String :=
  String.ofList [Nat.digitChar (b.toNat / 16), Nat.digitChar (b.toNat % 16)]

/-- The form in which messages show a status, an opcode or a magic number. -/
def codeText (b : UInt8) : String :=
  "0x" ++ hexByte b

end GridClient
