import GridClient.Reader

/-!
# Variable-length integers

A number is cut into groups of seven bits, the least significant group first;
every byte but the last has its high bit set. Signed numbers are folded onto the
naturals first, so that small magnitudes stay short.
-/

namespace GridClient
namespace Varint

/-!
# Writing
-/

def ofNat (n : Nat) : Bytes :=
  if n < 128 then [UInt8.ofNat n]
  else UInt8.ofNat (n % 128 + 128) :: ofNat (n / 128)
termination_by n
decreasing_by omega

def ofUInt32 (n : UInt32) : Bytes :=
  ofNat n.toNat

def ofUInt64 (n : UInt64) : Bytes :=
  ofNat n.toNat

/-- A length, of which the lowest 32 bits are written. -/
def ofLength (n : Nat) : Bytes :=
  ofUInt32 (UInt32.ofNat n)

/-- Folds the integers onto the naturals: 0, -1, 1, -2, 2, … -/
def zigzag (n : Int) : Nat :=
  if 0 ≤ n then (2 * n).toNat else (-2 * n - 1).toNat

def unzigzag (n : Nat) : Int :=
  if n % 2 = 0 then n / 2 else -((n + 1) / 2)

def ofInt32 (n : Int32) : Bytes :=
  ofNat (zigzag n.toInt)

theorem unzigzag_zigzag (n : Int) : unzigzag (zigzag n) = n := by
  unfold zigzag unzigzag
  split <;> split <;> omega

/-!
# Reading
-/

/-- Reads at most `left` groups; `shift` counts the bits read so far and `sum` is
the number they make. -/
def groups : Nat → Nat → Nat → Reader Nat
  | 0, _, _ => Reader.fault .longVarint
  | left + 1, shift, sum => do
      let b ← Reader.byte
      let sum := sum + (b.toNat % 128) * 2 ^ shift
      if b < 0x80 then return sum else groups left (shift + 7) sum

/-- A number of 64 bits takes at most ten groups; of a larger sum the lowest 64
bits remain. -/
def uint64 : Reader UInt64 := do
  let sum ← groups 10 0 0
  return UInt64.ofNat sum

def uint32 : Reader UInt32 := do
  let n ← uint64
  if n.toNat < UInt32.size then return n.toUInt32 else Reader.fault (.wideVarint n)

def int32 : Reader Int32 := do
  let n ← uint32
  return Int32.ofInt (unzigzag n.toNat)

/-- A number that starts a list or a block: how many items or bytes follow. -/
def length : Reader Nat := do
  let n ← uint32
  return n.toNat

end Varint
end GridClient
