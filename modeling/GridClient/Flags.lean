import GridClient.Bytes

/-!
# Request flags

A set of flags that a request carries, as bits. Bits without a name are kept.
-/

namespace GridClient

structure Flags where
  bits : UInt32
  deriving DecidableEq, Repr

namespace Flags

def none : Flags :=
  ⟨0⟩

def forceReturnValue : Flags :=
  ⟨0x01⟩

def defaultLifespan : Flags :=
  ⟨0x02⟩

def defaultMaxIdle : Flags :=
  ⟨0x04⟩

def skipCacheLoad : Flags :=
  ⟨0x08⟩

def skipIndexing : Flags :=
  ⟨0x10⟩

def skipListenerNotification : Flags :=
  ⟨0x20⟩

instance : Inhabited Flags where
  default := none

instance : OrOp Flags where
  or a b := ⟨a.bits ||| b.bits⟩

def contains (flags other : Flags) : Bool :=
  flags.bits &&& other.bits == other.bits

def isEmpty (flags : Flags) : Bool :=
  flags.bits == 0

/-- Keeps the flags if the condition holds. -/
def onlyIf (flags : Flags) (condition : Bool) : Flags :=
  if condition then flags else none

def names : List (Flags × String) :=
  [(forceReturnValue, "FORCE_RETURN_VALUE"),
    (defaultLifespan, "DEFAULT_LIFESPAN"),
    (defaultMaxIdle, "DEFAULT_MAXIDLE"),
    (skipCacheLoad, "SKIP_CACHE_LOAD"),
    (skipIndexing, "SKIP_INDEXING"),
    (skipListenerNotification, "SKIP_LISTENER_NOTIFICATION")]

/-- The bits in hexadecimal and the names among them. -/
def describe (flags : Flags) : String :=
  let digits := String.ofList (Nat.toDigits 16 flags.bits.toNat)
  let named := " | ".intercalate ((names.filter fun (flag, _) => flags.contains flag).map Prod.snd)
  s!"Flags(0x{digits}: {named})"

end Flags
end GridClient
