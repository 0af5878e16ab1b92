import GridClient.Bytes

/-!
# Key hash

The 64-bit hash by which servers and clients place a key. Blocks of sixteen
bytes are mixed into two words of state with multipliers that change from block
to block; a shorter last block is packed from sign-extended bytes and mixed in
the same way; the length and a final scramble follow.
-/

namespace GridClient
namespace Hash

structure State where
  h1 : UInt64
  h2 : UInt64
  c1 : UInt64
  c2 : UInt64
  deriving DecidableEq, Repr

def rotateLeft (x : UInt64) (n : UInt64) : UInt64 :=
  (x <<< n) ||| (x >>> (64 - n))

namespace State

def seeded (seed : UInt64) : State where
  h1 := 0x9368e53c2f6af274 ^^^ seed
  h2 := 0x586dcd208f7cd3fd ^^^ seed
  c1 := 0x87c37b91114253d5
  c2 := 0x4cf5ad432745937f

def mix (s : State) (k1 k2 : UInt64) : State :=
  let h1 := (s.h1 ^^^ (rotateLeft (k1 * s.c1) 23 * s.c2)) + s.h2
  let h2 := (rotateLeft s.h2 41 ^^^ (rotateLeft (k2 * s.c2) 23 * s.c1)) + h1
  { h1 := h1 * 3 + 0x52dce729
    h2 := h2 * 3 + 0x38495ab5
    c1 := s.c1 * 5 + 0x7b7d159c
    c2 := s.c2 * 5 + 0x6bce6396 }

end State

def word : Bytes → UInt64
  | [] => 0
  | b :: rest => b.toUInt64 ||| (word rest <<< 8)

def widen (b : UInt8) : UInt64 :=
  if b < 0x80 then b.toUInt64 else b.toUInt64 ||| 0xffffffffffffff00

/-- A word of the last block: sign-extended bytes, each shifted to its place and
combined by exclusive or. -/
def tailWord : Bytes → UInt64
  | [] => 0
  | b :: rest => widen b ^^^ (tailWord rest <<< 8)

/-- Mixes in a number of whole blocks, then what is left. -/
def absorb : Nat → State → Bytes → State
  | 0, s, [] => s
  | 0, s, tail => s.mix (tailWord (tail.take 8)) (tailWord (tail.drop 8))
  | blocks + 1, s, key =>
      absorb blocks (s.mix (word (key.take 8)) (word ((key.drop 8).take 8))) (key.drop 16)

/-- Spreads every bit of a word over the whole word. -/
def scramble (k : UInt64) : UInt64 :=
  let k := (k ^^^ (k >>> 33)) * 0xff51afd7ed558ccd
  let k := (k ^^^ (k >>> 33)) * 0xc4ceb9fe1a85ec53
  k ^^^ (k >>> 33)

/-- The two words after all bytes and the length have been mixed in. -/
def mixed (key : Bytes) : UInt64 × UInt64 :=
  let s := absorb (key.length / 16) (State.seeded 9001) key
  (s.h1, s.h2 ^^^ UInt64.ofNat key.length)

/-- The two words after the last additions and scrambles. -/
def finished (key : Bytes) : UInt64 × UInt64 :=
  let (h1, h2) := mixed key
  let h1 := h1 + h2
  let h2 := h2 + h1
  (scramble h1, scramble h2)

def hash64 (key : Bytes) : UInt64 :=
  (finished key).1 + (finished key).2

def hash32 (key : Bytes) : Int32 :=
  (hash64 key >>> 32).toUInt32.toInt32

end Hash
end GridClient
