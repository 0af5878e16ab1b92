import GridClient.Address
import GridClient.Protocol.Version

/-!
# Channels

A channel is a connection to one node, lent out for one request. Whoever holds
one gives it back either clean, so that it may be used again, or not.
-/

namespace GridClient

structure Channel where
  id : Nat
  node : NodeAddress
  version : Version
  deriving DecidableEq, Repr

/-- Which node a channel is wanted to. -/
inductive Target where
  | address (node : NodeAddress)
  | any
  deriving DecidableEq, Repr

def Target.text : Target → String
  | address node => node.text
  | any => "any"

def Target.node? : Target → Option NodeAddress
  | address node => some node
  | any => none

/-!
# Guards
-/

/-- A channel that is held, and whether a response is still to come on it. -/
structure Guard where
  channel : Channel
  awaiting : Bool
  deriving DecidableEq, Repr

namespace Guard

def fresh (channel : Channel) : Guard where
  channel := channel
  awaiting := false

def sent (g : Guard) : Guard :=
  { g with awaiting := true }

def received (g : Guard) : Guard :=
  { g with awaiting := false }

end Guard
end GridClient
