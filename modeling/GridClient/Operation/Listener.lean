import GridClient.Address
import GridClient.Wire.Block

/-!
# Listeners

The registration of a client's listener, and the server-side factories of filters
and converters that listeners and iterations name.
-/

namespace GridClient

structure NamedFactory where
  name : String
  params : List Bytes
  deriving DecidableEq, Repr

namespace NamedFactory

/-- The number of parameters in a byte, then the parameters. -/
def paramBytes (f : NamedFactory) : Bytes :=
  UInt8.ofNat f.params.length :: (f.params.map Block.ofBytes).flatten

/-- In a listener's registration an absent factory has an empty name. -/
def listenerBytes : Option NamedFactory → Bytes
  | some f => Block.ofText f.name ++ f.paramBytes
  | none => Block.ofText ""

/-- In an iteration's start an absent factory has no name. -/
def iterationBytes : Option NamedFactory → Bytes
  | some f => Block.ofOptionalText (some f.name) ++ f.paramBytes
  | none => Block.ofOptionalText none

end NamedFactory

structure ListenerOptions where
  includeState : Bool := false
  filter : Option NamedFactory := none
  converter : Option NamedFactory := none
  rawData : Bool := false
  deriving DecidableEq, Repr

/-- A listener that a node has registered. -/
structure Registration where
  id : Bytes
  address : NodeAddress
  deriving DecidableEq, Repr

end GridClient
