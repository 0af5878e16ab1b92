import GridClient.Topology.Snapshot

/-!
# Topology registries

The topologies a client holds: one for the default cache, which has the empty
name, and one for every other cache that has been used. A cache that has not been
used reads the default topology; on its first use it starts from the servers the
default topology lists. A topology is replaced by one of a higher epoch only.
-/

namespace GridClient

structure Registry where
  intelligence : Intelligence
  default : Topology
  caches : Table Bytes Topology

namespace Registry

def ofServers (intelligence : Intelligence) (servers : List NodeAddress) : Registry where
  intelligence := intelligence
  default := .initial intelligence servers
  caches := []

def current (r : Registry) (cache : Bytes) : Topology :=
  (r.caches.get? cache).getD r.default

/-- Gives a cache a topology of its own on its first use. -/
def touch (r : Registry) (cache : Bytes) : Registry :=
  if cache = [] || r.caches.contains cache then r
  else { r with caches := r.caches.insert cache (.initial r.intelligence r.default.servers) }

def install (r : Registry) (cache : Bytes) (t : Topology) : Registry :=
  if cache = [] then { r with default := t }
  else { r with caches := r.caches.insert cache t }

/-- Uses a cache and installs a topology for it if its epoch is higher. -/
def offer (r : Registry) (cache : Bytes) (t : Topology) : Bool × Registry :=
  let r := r.touch cache
  if (r.current cache).epoch < t.epoch then (true, r.install cache t) else (false, r)

def apply (r : Registry) (cache : Bytes) (u : TopologyUpdate) :
    Except ClientError (Bool × Registry) := do
  let t ← Topology.ofUpdate u r.intelligence
  return r.offer cache t

def push (r : Registry) (cache payload : Bytes) : Except ClientError (Bool × Registry) := do
  let u ← (TopologyUpdate.reader r.intelligence).value payload
  r.apply cache u

end Registry
end GridClient
