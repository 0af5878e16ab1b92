import GridClient.Attempt.Basic
import GridClient.Proofs.Operation.Layout

/-!
# Requests read back

A server finds in a frame just what the attempt has put there: its header, field by field, and
behind it the body of the operation. If it knows the layout of the body it gets the operation.
-/

namespace GridClient

open Reader

namespace RequestHeader

theorem reads_versionReader (v : Version) : versionReader.Reads [v.code] v := by
  apply Reads.byte_bind
  rw [Version.ofCode?_code]
  exact reads_pure v

theorem reads_intelligenceReader (i : Intelligence) : intelligenceReader.Reads [i.code] i := by
  apply Reads.byte_bind
  rw [Intelligence.ofCode?_code]
  exact reads_pure i

/-- The epoch travels as a number without a sign; its bits are kept. -/
theorem reads_reader {h : RequestHeader} (hcache : h.cache.length < UInt32.size) :
    reader.Reads h.toBytes h := by
  apply Reads.byte_bind
  rw [if_pos rfl]
  apply (Varint.reads_uint64 h.messageId).bind
  apply (reads_versionReader h.version).bind
  apply Reads.byte_bind
  apply (Block.reads_bytes hcache).bind
  apply (Varint.reads_uint32 h.flags.bits).bind
  apply (reads_intelligenceReader h.intelligence).bind
  apply (Varint.reads_uint32 h.topologyId.toUInt32).bind
  exact (reads_many_byte (mediaTypes h.version)).bind_pure _

end RequestHeader

/-- The request that a server gets from a frame if the frame is one for this operation: the
header, which has to name the operation, and what the layout makes of the body. Nothing may be
left of the frame. -/
def Operation.received? (op : OpCode) (frame : Bytes) : Option (RequestHeader × Operation op) :=
  match layout op, RequestHeader.reader frame with
  | some r, (.ok header, body) =>
      match r body with
      | (.ok o, []) => if header.opCode = op.code then some (header, o) else none
      | _ => none
  | _, _ => none

namespace Attempt

theorem reader_frame {op : OpCode} {a : Attempt op} (hcache : a.cache.length < UInt32.size)
    (id : UInt64) (version : Version) :
    RequestHeader.reader (a.frame id version) = (.ok (a.header id version), a.operation.body) :=
  RequestHeader.reads_reader hcache a.operation.body

/-- A server gets the request that was sent, as far as it is told of it. -/
theorem received?_frame {op : OpCode} {a : Attempt op} (hop : op ∈ OpCode.dataOps)
    (hcache : a.cache.length < UInt32.size) (hfits : a.operation.Fits) (id : UInt64)
    (version : Version) :
    Operation.received? op (a.frame id version) =
      some (a.header id version, a.operation.asSent) := by
  rcases Option.isSome_iff_exists.1 (Operation.isSome_layout op hop) with ⟨r, hr⟩
  have hbody : r a.operation.body = (.ok a.operation.asSent, []) := by
    have hreads := Operation.reads_layout hr hfits []
    rwa [List.append_nil] at hreads
  unfold Operation.received?
  rw [hr, reader_frame hcache]
  dsimp only
  rw [hbody]
  exact if_pos rfl

/-- The frame of an attempt is read as the header of this attempt, with its number and the version
of the channel, and the body of its operation is left. Every header is read as it was written,
whatever follows it. -/
theorem frame_recovered :
    (∀ {op : OpCode} (a : Attempt op) (id : UInt64) (version : Version),
      a.cache.length < UInt32.size →
        RequestHeader.reader (a.frame id version) =
          (.ok {
            messageId := id
            version
            opCode := op.code
            cache := a.cache
            flags := a.flags
            intelligence := a.intelligence
            topologyId := a.topology.epoch }, a.operation.body)) ∧
    ∀ h : RequestHeader, h.cache.length < UInt32.size → ∀ tail,
      RequestHeader.reader (h.toBytes ++ tail) = (.ok h, tail) := by
  constructor
  · intro op a id version hcache
    exact reader_frame hcache id version
  · intro h hcache
    exact RequestHeader.reads_reader hcache

/-- A put before any topology is known; the epoch is -1. -/
def earlyPut : Attempt .put where
  cache := [98, 107]
  operation := .put [107] [118] {}
  flags := ⟨6⟩
  topology := .initial .hashDistributionAware [⟨"a", 11222⟩]
  intelligence := .hashDistributionAware
  target := .any
  deadline := 9
  patience := 5

def earlyHeader : RequestHeader where
  messageId := 300
  version := .v28
  opCode := 0x01
  cache := [98, 107]
  flags := ⟨6⟩
  intelligence := .hashDistributionAware
  topologyId := -1

theorem frame_recovered_earlyPut :
    earlyPut.cache.length < UInt32.size ∧
      RequestHeader.reader (earlyPut.frame 300 .v28) =
        (.ok earlyHeader, earlyPut.operation.body) ∧
      RequestHeader.reader (earlyHeader.toBytes ++ [1, 2]) = (.ok earlyHeader, [1, 2]) := by
  have hcache : earlyPut.cache.length < UInt32.size := by
    decide
  exact ⟨hcache, frame_recovered.1 earlyPut 300 .v28 hcache,
    frame_recovered.2 earlyHeader hcache [1, 2]⟩

end Attempt
end GridClient
