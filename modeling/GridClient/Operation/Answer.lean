import GridClient.Operation.Basic
import GridClient.Wire.Bitset

/-!
# Answers

How the body of a response is read. The status, the protocol version of the
channel and the node that answered all have a say in it.
-/

namespace GridClient
namespace Answer

/-- The value an entry had before, if the status says that one follows. An empty
value stands for none. -/
def previous (status : Status) : Reader (Option Bytes) :=
  if status.hasPrevious then do
    let b ← Block.bytes
    return if b = [] then none else some b
  else return none

def write (status : Status) : Reader WriteResult := do
  let previous ← previous status
  return { executed := status.isSuccess, previous }

/-- The outcome that a status means for a write that asks for a version. -/
def versionedStatus (status : Status) : Option VersionedStatus :=
  if status.isSuccess then some .success
  else if status.isNotExist then some .noSuchKey
  else if status.isNotExecuted then some .modifiedKey
  else none

def versioned (op : OpCode) (status : Status) : Reader VersionedResult :=
  match versionedStatus status with
  | some outcome => do
      let previous ← previous status
      return { status := outcome, previous }
  | none => Reader.fault (.unexpectedStatus status.code op)

/-- A value, unless the status says that the key does not exist. -/
def ifPresent (status : Status) (r : Reader α) : Reader (Option α) :=
  if status.isNotExist then return none
  else do
    let a ← r
    return some a

def pairOf (r : Reader α) (s : Reader β) : Reader (α × β) := do
  let a ← r
  let b ← s
  return (a, b)

/-- Entries by key; the last one counts. -/
def table [DecidableEq κ] (entry : Reader (κ × α)) : Reader (Table κ α) := do
  let count ← Varint.length
  let entries ← Reader.many count entry
  return Table.merge [] entries

/-!
# Capabilities
-/

/-- A media type is absent, predefined with a number, or custom with a name; the
latter two have parameters. -/
def mediaTypeName (kind : UInt8) : Reader Unit :=
  if kind = 1 then do
    let _ ← Varint.uint32
    return ()
  else do
    let _ ← Block.text
    return ()

def mediaType : Reader Unit := do
  let kind ← Reader.byte
  if kind = 0 then return ()
  else
    mediaTypeName kind
    let params ← Varint.length
    let _ ← Reader.many params (pairOf Block.text Block.text)
    return ()

def ping (version : Version) : Reader PingReply :=
  if version.hasPingCapabilities then do
    mediaType
    mediaType
    let serverVersion ← Reader.byte
    let count ← Varint.length
    let supportedOps ← Reader.many count Reader.uint16
    return { serverVersion := some serverVersion, supportedOps }
  else return { serverVersion := none, supportedOps := [] }

/-!
# Pages
-/

def entryMetadata : Reader (Option Metadata) := do
  let marker ← Reader.byte
  if marker = 1 then
    let m ← Metadata.reader
    return some m
  else return none

/-- The values of an entry: one, or as many as there are projections. -/
def entryValues (projections : Nat) : Reader (Bytes × List Bytes) :=
  match projections with
  | n + 2 => do
      let first ← Block.bytes
      let others ← Reader.many (n + 1) Block.bytes
      return (first, first :: others)
  | _ => do
      let value ← Block.bytes
      return (value, [])

def pageEntry (projections : Nat) : Reader ScanEntry := do
  let metadata ← entryMetadata
  let key ← Block.bytes
  let (value, projections) ← entryValues projections
  return { key, value, metadata, projections }

/-- The number of projections is there only if there are entries. -/
def pageEntries : Reader (List ScanEntry) := do
  let count ← Varint.length
  if count = 0 then return []
  else
    let projections ← Varint.length
    Reader.many count (pageEntry projections)

def page : Reader Page := do
  let finished ← Block.bytes
  let entries ← pageEntries
  return { finished := Bitset.toSegments finished, entries }

end Answer

namespace Operation

def answer (status : Status) (version : Version) (node : NodeAddress) :
    {op : OpCode} → Operation op → Reader op.Reply
  | _, put _ _ _ => Answer.previous status
  | _, get _ => Answer.ifPresent status Block.bytes
  | _, putIfAbsent _ _ _ => Answer.write status
  | _, replace _ _ _ => Answer.write status
  | _, replaceIfUnmodified _ _ _ _ => Answer.versioned .replaceIfUnmodified status
  | _, remove _ => Answer.write status
  | _, removeIfUnmodified _ _ => Answer.versioned .removeIfUnmodified status
  | _, containsKey _ => (return !status.isNotExist : Reader Bool)
  | _, clear => (return () : Reader Unit)
  | _, stats => Answer.table (Answer.pairOf Block.text Block.text)
  | _, ping _ => Answer.ping version
  | _, getWithMetadata _ => Answer.ifPresent status MetadataValue.reader
  | _, bulkGetKeys _ => Reader.marked Block.bytes
  | _, authMechList _ => do
      let count ← Varint.length
      Reader.many count Block.text
  | _, auth _ _ _ => do
      let complete ← Reader.byte
      let challenge ← Block.bytes
      return { complete := complete != 0, challenge : AuthResult }
  | _, addClientListener id _ => (return { id, address := node } : Reader Registration)
  | _, removeClientListener _ => (return () : Reader Unit)
  | _, size => Varint.uint64
  | _, exec _ _ _ => Block.bytes
  | _, putAll _ _ => (return () : Reader Unit)
  | _, getAll _ => Answer.table (Answer.pairOf Block.bytes Block.bytes)
  | _, iterationStart _ _ _ _ _ => do
      let id ← Block.text
      return { id, address := node : Cursor }
  | _, iterationNext c =>
      if status.isInvalidIteration then Reader.fail (.invalidIteration c.id) else Answer.page
  | _, iterationEnd _ => (return !status.isInvalidIteration : Reader Bool)
  | _, getStream _ _ => Answer.ifPresent status MetadataValue.reader
  | _, putStream _ _ _ _ _ => (return status.isSuccess : Reader Bool)
  | _, prepareTransaction _ => Reader.int32

end Operation
end GridClient
