/-!
# Durations

A span of time in nanoseconds. The number of whole seconds fits in 64 bits.
-/

namespace GridClient

def nanosPerSecond : Nat :=
  1000000000

def nanosPerMilli : Nat :=
  1000000

structure Duration where
  nanos : Nat
  nanos_lt : nanos < UInt64.size * nanosPerSecond
  deriving DecidableEq

namespace Duration

instance : Repr Duration where
  reprPrec d n := reprPrec d.nanos n

def ofSeconds (n : UInt64) : Duration where
  nanos := n.toNat * nanosPerSecond
  nanos_lt := by
    have := n.toNat_lt_size
    simp only [nanosPerSecond]
    omega

def ofMillis (n : UInt64) : Duration where
  nanos := n.toNat * nanosPerMilli
  nanos_lt := by
    have := n.toNat_lt_size
    simp only [nanosPerSecond, nanosPerMilli]
    omega

def ofNanos (n : UInt64) : Duration where
  nanos := n.toNat
  nanos_lt := by
    have := n.toNat_lt_size
    simp only [nanosPerSecond]
    omega

/-- Whole seconds and the nanoseconds beyond them, fewer than a second's worth. -/
def ofParts (seconds : UInt64) (nanos : Nat) : Duration where
  nanos := seconds.toNat * nanosPerSecond + nanos % nanosPerSecond
  nanos_lt := by
    have := seconds.toNat_lt_size
    simp only [nanosPerSecond]
    omega

def seconds (d : Duration) : Nat :=
  d.nanos / nanosPerSecond

/-- Nanoseconds beyond the whole seconds. -/
def subsecond (d : Duration) : Nat :=
  d.nanos % nanosPerSecond

def millis (d : Duration) : Nat :=
  d.nanos / nanosPerMilli

end Duration
end GridClient
