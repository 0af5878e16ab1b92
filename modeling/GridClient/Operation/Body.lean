import GridClient.Operation.Basic
import GridClient.Wire.Bitset

/-!
# Request bodies

What follows the header of a request.
-/

namespace GridClient
namespace Operation

def entryBytes (entry : Bytes × Bytes) : Bytes :=
  Block.ofBytes entry.1 ++ Block.ofBytes entry.2

def paramBytes (param : String × Bytes) : Bytes :=
  Block.ofText param.1 ++ Block.ofBytes param.2

def segmentBytes (segments : Option SegmentSet) : Bytes :=
  Block.ofOptionalBytes (segments.map fun s => Bitset.ofSegments s.toList)

def body : {op : OpCode} → Operation op → Bytes
  | _, put k v e => Block.ofBytes k ++ (e.toBytes ++ Block.ofBytes v)
  | _, get k => Block.ofBytes k
  | _, putIfAbsent k v e => Block.ofBytes k ++ (e.toBytes ++ Block.ofBytes v)
  | _, replace k v e => Block.ofBytes k ++ (e.toBytes ++ Block.ofBytes v)
  | _, replaceIfUnmodified k v version e =>
      Block.ofBytes k ++ (e.toBytes ++ (Bytes.ofUInt64 version ++ Block.ofBytes v))
  | _, remove k => Block.ofBytes k
  | _, removeIfUnmodified k version => Block.ofBytes k ++ Bytes.ofUInt64 version
  | _, containsKey k => Block.ofBytes k
  | _, clear => []
  | _, stats => []
  | _, ping _ => []
  | _, getWithMetadata k => Block.ofBytes k
  | _, bulkGetKeys scope => Varint.ofUInt32 scope
  | _, authMechList _ => []
  | _, auth _ mechanism response => Block.ofText mechanism ++ Block.ofBytes response
  | _, addClientListener id options =>
      Block.ofBytes id
        ++ options.includeState.toUInt8 :: (NamedFactory.listenerBytes options.filter
        ++ (NamedFactory.listenerBytes options.converter ++ [options.rawData.toUInt8]))
  | _, removeClientListener r => Block.ofBytes r.id
  | _, size => []
  | _, exec task params _ =>
      Block.ofText task ++ (Varint.ofLength params.length ++ (params.map paramBytes).flatten)
  | _, putAll entries e =>
      e.toBytes ++ (Varint.ofLength entries.length ++ (entries.map entryBytes).flatten)
  | _, getAll keys => Varint.ofLength keys.length ++ (keys.map Block.ofBytes).flatten
  | _, iterationStart segments filter batch metadata _ =>
      segmentBytes segments
        ++ (NamedFactory.iterationBytes filter ++ (Varint.ofUInt32 batch ++ [metadata.toUInt8]))
  | _, iterationNext c => Block.ofText c.id
  | _, iterationEnd c => Block.ofText c.id
  | _, getStream k offset => Block.ofBytes k ++ Varint.ofUInt32 offset
  | _, putStream k v condition e chunk =>
      Block.ofBytes k
        ++ (e.toBytes ++ (Bytes.ofUInt64 condition.wireVersion ++ Chunked.toBytes chunk v))
  | _, prepareTransaction t => t.toBytes

end Operation
end GridClient
