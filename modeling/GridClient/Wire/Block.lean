import GridClient.Wire.Varint

/-!
# Blocks of bytes

A block is its length followed by its bytes. An optional block has a signed
length, negative when the block is absent. Text is a block of UTF-8.
-/

namespace GridClient
namespace Block

/-!
# Writing
-/

def ofBytes (bytes : Bytes) : Bytes :=
  Varint.ofLength bytes.length ++ bytes

def ofText (text : String) : Bytes :=
  ofBytes (Bytes.ofText text)

def ofOptionalBytes : Option Bytes → Bytes
  | some bytes => Varint.ofInt32 (Int32.ofNat bytes.length) ++ bytes
  | none => Varint.ofInt32 (-1)

def ofOptionalText (text : Option String) : Bytes :=
  ofOptionalBytes (text.map Bytes.ofText)

/-!
# Reading
-/

def bytes : Reader Bytes := do
  let n ← Varint.length
  Reader.take n "array"

def decodeText (bytes : Bytes) : Reader String :=
  match Utf8.decode bytes with
  | .ok text => return text
  | .error f => Reader.fault (.invalidText f)

def text : Reader String := do
  let b ← bytes
  decodeText b

def optionalBytes : Reader (Option Bytes) := do
  let n ← Varint.int32
  if n < 0 then return none
  else
    let b ← Reader.take n.toInt.toNat "optional array"
    return some b

def optionalText : Reader (Option String) := do
  match ← optionalBytes with
  | none => return none
  | some b =>
      let t ← decodeText b
      return some t

end Block
end GridClient
