import GridClient.Protocol.Status
import GridClient.Topology.Update

/-!
# Response headers

The front of every response. After the status a byte says whether a topology
update follows.
-/

namespace GridClient

structure ResponseHeader where
  messageId : UInt64
  opCode : UInt8
  status : Status
  topology : Option TopologyUpdate
  deriving DecidableEq, Repr

namespace ResponseHeader

def magic : UInt8 :=
  0xA1

def topologyBytes (intelligence : Intelligence) : Option TopologyUpdate → Bytes
  | some u => 1 :: u.toBytes intelligence
  | none => [0]

def toBytes (h : ResponseHeader) (intelligence : Intelligence) : Bytes :=
  magic :: (Varint.ofUInt64 h.messageId
    ++ h.opCode :: h.status.code :: topologyBytes intelligence h.topology)

def topologyReader (intelligence : Intelligence) : Reader (Option TopologyUpdate) := do
  let marker ← Reader.byte
  match marker with
  | 0 => return none
  | 1 => do
      let u ← TopologyUpdate.reader intelligence
      return some u
  | other => Reader.fault (.topologyMarker other)

def reader (intelligence : Intelligence) : Reader ResponseHeader := do
  let found ← Reader.byte
  if found = magic then
    let messageId ← Varint.uint64
    let opCode ← Reader.byte
    let status ← Reader.byte
    let topology ← topologyReader intelligence
    return { messageId, opCode, status := ⟨status⟩, topology }
  else Reader.fault (.responseMagic found)

end ResponseHeader
end GridClient
