import GridClient.Flags

/-!
# Call contexts

Flags that a caller sets for the next request only.
-/

namespace GridClient

structure CallContext where
  flags : Option Flags := none
  deriving DecidableEq, Repr, Inhabited

namespace CallContext

def set (_ : CallContext) (flags : Flags) : CallContext where
  flags := some flags

def hasPending (c : CallContext) : Bool :=
  c.flags.isSome

/-- The pending flags, which are then gone. -/
def take (c : CallContext) : Option Flags × CallContext :=
  (c.flags, {})

end CallContext
end GridClient
