import GridClient.Hash.Mixing

/-!
# Segments

The 31-bit hash space is cut into segments of equal size, the last one possibly
shorter. A key belongs to the segment its hash falls into.
-/

namespace GridClient
namespace Hash

/-- The place of a key in the hash space: its hash without the sign bit. -/
def place (key : Bytes) : UInt32 :=
  (hash32 key).toUInt32 &&& 0x7fffffff

def places : Nat :=
  2147483648

/-- How many places a segment covers; no count divides into fewer than one. -/
def segmentSize (count : UInt32) : UInt32 :=
  let count := max count.toNat 1
  UInt32.ofNat ((places + count - 1) / count)

def segmentOf (key : Bytes) (count : UInt32) : UInt32 :=
  place key / segmentSize count

end Hash
end GridClient
