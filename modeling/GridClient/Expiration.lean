import GridClient.Duration
import GridClient.Flags
import GridClient.Wire.Varint

/-!
# Expiration

How long an entry lives, and how long it may go unused. On the wire a first byte
holds the two units, lifespan in the high half; the amounts follow for those
units that have one. A duration is sent in the coarsest unit that keeps its
fraction: seconds, milliseconds, nanoseconds, as 64-bit amounts.
-/

namespace GridClient

inductive Lifetime where
  | serverDefault
  | immortal
  | after (d : Duration)
  deriving DecidableEq, Repr

namespace Lifetime

instance : Inhabited Lifetime where
  default := serverDefault

/-- The code of the time unit and the amount in that unit. -/
def parts : Lifetime → UInt8 × Option UInt64
  | serverDefault => (7, none)
  | immortal => (8, none)
  | after d =>
      if d.subsecond = 0 then (0, some (UInt64.ofNat d.seconds))
      else if d.subsecond % nanosPerMilli = 0 then (1, some (UInt64.ofNat d.millis))
      else (2, some (UInt64.ofNat d.nanos))

def amount (lifetime : Lifetime) : Bytes :=
  match lifetime.parts.2 with
  | some n => Varint.ofUInt64 n
  | none => []

def reader (unit : UInt8) : Reader Lifetime :=
  match unit with
  | 7 => return serverDefault
  | 8 => return immortal
  | 0 => do
      let n ← Varint.uint64
      return after (.ofSeconds n)
  | 1 => do
      let n ← Varint.uint64
      return after (.ofMillis n)
  | 2 => do
      let n ← Varint.uint64
      return after (.ofNanos n)
  | other => Reader.fault (.unknownTimeUnit other)

end Lifetime

structure Expiration where
  lifespan : Lifetime := .serverDefault
  maxIdle : Lifetime := .serverDefault
  deriving DecidableEq, Repr, Inhabited

namespace Expiration

/-- The flags that tell a server to use its own defaults. -/
def impliedFlags (e : Expiration) : Flags :=
  Flags.defaultLifespan.onlyIf (e.lifespan == .serverDefault)
    ||| Flags.defaultMaxIdle.onlyIf (e.maxIdle == .serverDefault)

def toBytes (e : Expiration) : Bytes :=
  ((e.lifespan.parts.1 <<< 4) ||| e.maxIdle.parts.1)
    :: (e.lifespan.amount ++ e.maxIdle.amount)

def reader : Reader Expiration := do
  let units ← Reader.byte
  let lifespan ← Lifetime.reader (units >>> 4)
  let maxIdle ← Lifetime.reader (units &&& 0x0F)
  return { lifespan, maxIdle }

end Expiration
end GridClient
