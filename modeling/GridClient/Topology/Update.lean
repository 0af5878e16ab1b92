import GridClient.Address
import GridClient.Protocol.Intelligence
import GridClient.Wire.Block

/-!
# Topology updates

What a server says about the cluster: the servers and, for clients that route by
hash, the servers that own each segment, as positions in the server list.
-/

namespace GridClient

structure TopologyUpdate where
  id : Int32
  servers : List NodeAddress
  hashFunction : UInt8
  owners : Option (List (List UInt32))
  deriving DecidableEq, Repr

namespace TopologyUpdate

/-- The hash function that keys are placed by. -/
def murmur3 : UInt8 :=
  3

/-- The update that describes a table of owners: its servers are the distinct
addresses of the table in the order of their first appearance. -/
def ofOwners (id : Int32) (table : List (List NodeAddress)) : TopologyUpdate :=
  let servers := table.flatten.eraseDups
  { id
    servers
    hashFunction := murmur3
    owners := some (table.map fun owners => owners.map fun a => UInt32.ofNat (servers.idxOf a)) }

/-!
# Writing
-/

def serverBytes (a : NodeAddress) : Bytes :=
  Block.ofText a.host ++ Bytes.ofUInt16 a.port

def segmentBytes (owners : List UInt32) : Bytes :=
  UInt8.ofNat owners.length :: (owners.map Varint.ofUInt32).flatten

/-- The table of owners; no hash function stands for no table. -/
def tableBytes (u : TopologyUpdate) : Bytes :=
  match u.owners with
  | some table =>
      if u.hashFunction = 0 then [0]
      else u.hashFunction :: (Varint.ofLength table.length ++ (table.map segmentBytes).flatten)
  | none => [0]

def toBytes (u : TopologyUpdate) (intelligence : Intelligence) : Bytes :=
  Varint.ofUInt32 u.id.toUInt32
    ++ (Varint.ofLength u.servers.length
    ++ ((u.servers.map serverBytes).flatten
    ++ if intelligence = .hashDistributionAware then u.tableBytes else []))

/-!
# Reading
-/

def server : Reader NodeAddress := do
  let host ← Block.text
  let port ← Reader.uint16
  return { host, port }

/-- A position in a list of `servers` servers, read as an owner of a segment. -/
def owner (servers segment : Nat) : Reader UInt32 := do
  let index ← Varint.uint32
  if index.toNat < servers then return index
  else Reader.fault (.unknownOwner segment index)

def segment (servers index : Nat) : Reader (List UInt32) := do
  let count ← Reader.byte
  Reader.many count.toNat (owner servers index)

def reader (intelligence : Intelligence) : Reader TopologyUpdate := do
  let id ← Varint.uint32
  let count ← Varint.length
  let servers ← Reader.many count server
  if intelligence = .hashDistributionAware then
    let hashFunction ← Reader.byte
    if hashFunction = 0 then
      return { id := id.toInt32, servers, hashFunction, owners := none }
    else
      let count ← Varint.length
      let table ← Reader.manyFrom (segment servers.length) 0 count
      return { id := id.toInt32, servers, hashFunction, owners := some table }
  else
    return { id := id.toInt32, servers, hashFunction := 0, owners := none }

end TopologyUpdate
end GridClient
