import GridClient.Address
import GridClient.Wire.Block

/-!
# Entries

What servers tell about stored entries: metadata, values, and the pages in which
an iteration delivers them.
-/

namespace GridClient

structure Metadata where
  created : Option Int64
  lifespan : Option UInt32
  lastUsed : Option Int64
  maxIdle : Option UInt32
  version : UInt64
  deriving DecidableEq, Repr

namespace Metadata

/-- A time stamp and a span in seconds, absent when the entry has no such limit. -/
def limit (absent : Bool) : Reader (Option Int64 × Option UInt32) :=
  if absent then return (none, none)
  else do
    let stamp ← Reader.int64
    let span ← Varint.uint32
    return (some stamp, some span)

/-- Bit 0 of the first byte marks an infinite lifespan, bit 1 an infinite idle time. -/
def reader : Reader Metadata := do
  let marks ← Reader.byte
  let (created, lifespan) ← limit (marks &&& 1 != 0)
  let (lastUsed, maxIdle) ← limit (marks &&& 2 != 0)
  let version ← Reader.uint64
  return { created, lifespan, lastUsed, maxIdle, version }

end Metadata

structure MetadataValue where
  metadata : Metadata
  value : Bytes
  deriving DecidableEq, Repr

def MetadataValue.reader : Reader MetadataValue := do
  let metadata ← Metadata.reader
  let value ← Block.bytes
  return { metadata, value }

structure WriteResult where
  executed : Bool
  previous : Option Bytes
  deriving DecidableEq, Repr

inductive VersionedStatus where
  | success
  | modifiedKey
  | noSuchKey
  deriving DecidableEq, Repr

def VersionedStatus.title : VersionedStatus → String
  | success => "Success"
  | modifiedKey => "ModifiedKey"
  | noSuchKey => "NoSuchKey"

structure VersionedResult where
  status : VersionedStatus
  previous : Option Bytes
  deriving DecidableEq, Repr

/-!
# Iteration
-/

/-- A server's iteration and the node that holds it. -/
structure Cursor where
  id : String
  address : NodeAddress
  deriving DecidableEq, Repr

/-- An entry of a page. If a filter projects it to several values, `projections`
holds them all and `value` the first. -/
structure ScanEntry where
  key : Bytes
  value : Bytes
  metadata : Option Metadata
  projections : List Bytes
  deriving DecidableEq, Repr

structure Page where
  finished : List UInt32
  entries : List ScanEntry
  deriving DecidableEq, Repr

/-- A page without entries ends its iteration. -/
def Page.isLast (p : Page) : Bool :=
  p.entries.isEmpty

end GridClient
