import GridClient.Topology.SegmentMap
import GridClient.Topology.Update

/-!
# Topologies

One state of the cluster as a client knows it. Epochs count the states; a client
starts from the servers it was configured with, before any epoch.
-/

namespace GridClient

/-- The epoch before the first topology. -/
def noEpoch : Int32 :=
  -1

structure Topology where
  epoch : Int32
  intelligence : Intelligence
  servers : List NodeAddress
  segments : Option SegmentMap
  deriving DecidableEq

namespace Topology

def initial (intelligence : Intelligence) (servers : List NodeAddress) : Topology where
  epoch := noEpoch
  intelligence := intelligence
  servers := servers
  segments := none

/-- The topology that an update announces. Without the hash function that keys
are placed by, the table of owners is of no use and is dropped. -/
def ofUpdate (u : TopologyUpdate) (intelligence : Intelligence) : Except ClientError Topology := do
  let segments ←
    match u.owners with
    | some table =>
        if u.hashFunction = TopologyUpdate.murmur3 then
          some <$> SegmentMap.ofIndices u.servers table
        else pure none
    | none => pure none
  return { epoch := u.id, intelligence, servers := u.servers, segments }

def ownersOf (t : Topology) (key : Bytes) : List NodeAddress :=
  match t.segments with
  | some m => m.ownersOf key
  | none => []

def segmentOf (t : Topology) (key : Bytes) : Option UInt32 :=
  t.segments.map fun m => m.segmentOf key

def primaryOwner (t : Topology) (key : Bytes) : Option NodeAddress :=
  (t.ownersOf key).head?

def primaries (t : Topology) : Table NodeAddress SegmentSet :=
  match t.segments with
  | some m => m.primaries
  | none => []

structure Info where
  epoch : Int32
  segmentCount : Option UInt32
  segments : Table NodeAddress SegmentSet

def info (t : Topology) : Info :=
  let servers := t.servers.foldl (fun table a => Table.insert table a .empty) []
  { epoch := t.epoch
    segmentCount := t.segments.map SegmentMap.count
    segments :=
      match t.segments with
      | some m => m.creditOwners servers
      | none => servers }

end Topology
end GridClient
