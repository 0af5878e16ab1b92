import GridClient.Bytes

/-!
# Sets of segments as bits

On the wire a set of segments is a string of bits: segment `s` is bit `s % 8` of
byte `s / 8`.
-/

namespace GridClient
namespace Bitset

/-- Sets the bits of `mask` in byte `i`, adding zero bytes as far as needed. -/
def setBits (mask : UInt8) : Nat → Bytes → Bytes
  | 0, [] => [mask]
  | 0, b :: rest => (b ||| mask) :: rest
  | i + 1, [] => 0 :: setBits mask i []
  | i + 1, b :: rest => b :: setBits mask i rest

def ofSegments (segments : List UInt32) : Bytes :=
  segments.foldl
    (fun bits s => setBits (1 <<< UInt8.ofNat (s.toNat % 8)) (s.toNat / 8) bits) []

def bitsOf (index : Nat) (b : UInt8) : List UInt32 :=
  ((List.range 8).filter fun bit => b.toNat.testBit bit).map fun bit =>
    UInt32.ofNat (index * 8 + bit)

def toSegments (bits : Bytes) : List UInt32 :=
  bits.zipIdx.flatMap fun (b, index) => bitsOf index b

end Bitset
end GridClient
