import GridClient.Metrics
import GridClient.Topology.Registry

/-!
# Clients

What the calls of one client share: the topologies it has learnt, the number of
its next request, and the measurements it has recorded, the latest first.
-/

namespace GridClient

structure Client where
  registry : Registry
  nextId : UInt64 := 1
  measurements : List Measurement := []

namespace Client

def record (c : Client) (m : Measurement) : Client :=
  { c with measurements := m :: c.measurements }

def number (c : Client) : UInt64 × Client :=
  (c.nextId, { c with nextId := c.nextId + 1 })

def updated (c : Client) (cache : Bytes) (epoch : Int32) (update : Bool × Registry) :
    Bool × Client :=
  (update.1,
    { c with registry := update.2 }.record
      (.topologyUpdate (Utf8.lossy cache) epoch update.1))

def install (c : Client) (cache : Bytes) (u : TopologyUpdate) : Except ClientError Bool × Client :=
  match c.registry.apply cache u with
  | .ok update =>
      let (applied, c) := c.updated cache u.id update
      (.ok applied, c)
  | .error e => (.error e, c)

def push (c : Client) (cache payload : Bytes) : Except ClientError Bool × Client :=
  match (TopologyUpdate.reader c.registry.intelligence).value payload with
  | .ok u => c.install cache u
  | .error e => (.error e, c)

end Client
end GridClient
