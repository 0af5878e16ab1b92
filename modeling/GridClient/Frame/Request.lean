import GridClient.Flags
import GridClient.Protocol.Intelligence
import GridClient.Protocol.Version
import GridClient.Wire.Block

/-!
# Request headers

The front of every request. From 2.8 on two more bytes say that neither the key
nor the value has an explicit media type.
-/

namespace GridClient

structure RequestHeader where
  messageId : UInt64
  version : Version
  opCode : UInt8
  cache : Bytes
  flags : Flags
  intelligence : Intelligence
  topologyId : Int32
  deriving DecidableEq, Repr

namespace RequestHeader

def magic : UInt8 :=
  0xA0

def mediaTypes (v : Version) : Bytes :=
  if v.hasMediaTypes then [0, 0] else []

def toBytes (h : RequestHeader) : Bytes :=
  magic :: (Varint.ofUInt64 h.messageId
    ++ h.version.code :: h.opCode :: (Block.ofBytes h.cache
    ++ (Varint.ofUInt32 h.flags.bits
    ++ h.intelligence.code :: (Varint.ofUInt32 h.topologyId.toUInt32
    ++ mediaTypes h.version))))

def versionReader : Reader Version := do
  let code ← Reader.byte
  match Version.ofCode? code with
  | some v => return v
  | none => Reader.fail (.unsupportedVersion code)

def intelligenceReader : Reader Intelligence := do
  let code ← Reader.byte
  match Intelligence.ofCode? code with
  | some i => return i
  | none => Reader.fault (.unknownIntelligence code)

def reader : Reader RequestHeader := do
  let found ← Reader.byte
  if found = magic then
    let messageId ← Varint.uint64
    let version ← versionReader
    let opCode ← Reader.byte
    let cache ← Block.bytes
    let flags ← Varint.uint32
    let intelligence ← intelligenceReader
    let topologyId ← Varint.uint32
    let _ ← Reader.many (mediaTypes version).length Reader.byte
    return {
      messageId, version, opCode, cache
      flags := ⟨flags⟩
      intelligence
      topologyId := topologyId.toInt32 }
  else Reader.fault (.requestMagic found)

end RequestHeader
end GridClient
