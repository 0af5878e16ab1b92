import GridClient.Frame.Request
import GridClient.Frame.Response
import GridClient.Operation.Answer
import GridClient.Proofs.Wire.Exact

/-!
# Decoders

The decoders of the client: those of fields, of headers and topologies, and of the answers to
all kinds of operations. Each of them takes bytes of its own off the buffer. A frame that is cut
short is never taken for a whole one, and what follows has no say in what is read.
-/

namespace GridClient

open Reader

/-!
# Topologies and headers
-/

namespace TopologyUpdate

theorem exact_server : Exact server :=
  Block.exact_text.bind fun _ => exact_uint16.bind fun _ => exact_pure _

theorem exact_owner (servers segment : Nat) : Exact (owner servers segment) := by
  refine Varint.exact_uint32.bind ?_
  intro index
  split
  · exact exact_pure _
  · exact exact_fault _

theorem exact_segment (servers index : Nat) : Exact (segment servers index) :=
  exact_byte.bind fun count => (exact_owner servers index).many count.toNat

theorem exact_reader (intelligence : Intelligence) : Exact (reader intelligence) := by
  refine Varint.exact_uint32.bind fun _ => Varint.exact_length.bind fun count =>
    (exact_server.many count).bind ?_
  intro servers
  split
  · refine exact_byte.bind ?_
    intro hashFunction
    split
    · exact exact_pure _
    · exact Varint.exact_length.bind fun count =>
        (exact_manyFrom (exact_segment servers.length) 0 count).bind fun _ => exact_pure _
  · exact exact_pure _

end TopologyUpdate

namespace RequestHeader

theorem exact_versionReader : Exact versionReader := by
  refine exact_byte.bind ?_
  intro code
  split
  · exact exact_pure _
  · exact exact_fail _

theorem exact_intelligenceReader : Exact intelligenceReader := by
  refine exact_byte.bind ?_
  intro code
  split
  · exact exact_pure _
  · exact exact_fault _

theorem exact_reader : Exact reader := by
  refine exact_byte.bind ?_
  intro found
  split
  · exact Varint.exact_uint64.bind fun _ => exact_versionReader.bind fun version =>
      exact_byte.bind fun _ => Block.exact_bytes.bind fun _ => Varint.exact_uint32.bind fun _ =>
        exact_intelligenceReader.bind fun _ => Varint.exact_uint32.bind fun _ =>
          (exact_byte.many (mediaTypes version).length).bind fun _ => exact_pure _
  · exact exact_fault _

end RequestHeader

namespace ResponseHeader

theorem exact_topologyReader (intelligence : Intelligence) :
    Exact (topologyReader intelligence) := by
  refine exact_byte.bind ?_
  intro marker
  split
  · exact exact_pure _
  · exact (TopologyUpdate.exact_reader intelligence).bind fun _ => exact_pure _
  · exact exact_fault _

theorem exact_reader (intelligence : Intelligence) : Exact (reader intelligence) := by
  refine exact_byte.bind ?_
  intro found
  split
  · exact Varint.exact_uint64.bind fun _ => exact_byte.bind fun _ => exact_byte.bind fun _ =>
      (exact_topologyReader intelligence).bind fun _ => exact_pure _
  · exact exact_fault _

end ResponseHeader

/-!
# Entries
-/

theorem Metadata.exact_limit (absent : Bool) : Exact (limit absent) := by
  unfold limit
  split
  · exact exact_pure _
  · exact exact_int64.bind fun _ => Varint.exact_uint32.bind fun _ => exact_pure _

theorem Metadata.exact_reader : Exact reader :=
  exact_byte.bind fun _ => (exact_limit _).bind fun _ => (exact_limit _).bind fun _ =>
    exact_uint64.bind fun _ => exact_pure _

theorem MetadataValue.exact_reader : Exact reader :=
  Metadata.exact_reader.bind fun _ => Block.exact_bytes.bind fun _ => exact_pure _

/-!
# Answers
-/

namespace Answer

theorem exact_previous (status : Status) : Exact (previous status) := by
  unfold previous
  split
  · exact Block.exact_bytes.bind fun _ => exact_pure _
  · exact exact_pure _

theorem exact_write (status : Status) : Exact (write status) :=
  (exact_previous status).bind fun _ => exact_pure _

theorem exact_versioned (op : OpCode) (status : Status) : Exact (versioned op status) := by
  unfold versioned
  split
  · exact (exact_previous status).bind fun _ => exact_pure _
  · exact exact_fault _

variable {α β κ : Type}

theorem exact_ifPresent {r : Reader α} (hr : Exact r) (status : Status) :
    Exact (ifPresent status r) := by
  unfold ifPresent
  split
  · exact exact_pure _
  · exact hr.bind fun _ => exact_pure _

theorem exact_pairOf {r : Reader α} {s : Reader β} (hr : Exact r) (hs : Exact s) :
    Exact (pairOf r s) :=
  hr.bind fun _ => hs.bind fun _ => exact_pure _

theorem exact_table [DecidableEq κ] {entry : Reader (κ × α)} (h : Exact entry) :
    Exact (table entry) :=
  Varint.exact_length.bind fun count => (h.many count).bind fun _ => exact_pure _

theorem exact_mediaTypeName (kind : UInt8) : Exact (mediaTypeName kind) := by
  unfold mediaTypeName
  split
  · exact Varint.exact_uint32.bind fun _ => exact_pure _
  · exact Block.exact_text.bind fun _ => exact_pure _

theorem exact_mediaType : Exact mediaType := by
  refine exact_byte.bind ?_
  intro kind
  split
  · exact exact_pure _
  · exact (exact_mediaTypeName kind).bind fun _ => Varint.exact_length.bind fun params =>
      ((exact_pairOf Block.exact_text Block.exact_text).many params).bind fun _ => exact_pure _

theorem exact_ping (version : Version) : Exact (ping version) := by
  unfold ping
  split
  · exact exact_mediaType.bind fun _ => exact_mediaType.bind fun _ => exact_byte.bind fun _ =>
      Varint.exact_length.bind fun count => (exact_uint16.many count).bind fun _ => exact_pure _
  · exact exact_pure _

theorem exact_entryMetadata : Exact entryMetadata := by
  refine exact_byte.bind ?_
  intro marker
  split
  · exact Metadata.exact_reader.bind fun _ => exact_pure _
  · exact exact_pure _

theorem exact_entryValues (projections : Nat) : Exact (entryValues projections) := by
  unfold entryValues
  split
  · exact Block.exact_bytes.bind fun _ => (Block.exact_bytes.many _).bind fun _ => exact_pure _
  · exact Block.exact_bytes.bind fun _ => exact_pure _

theorem exact_pageEntry (projections : Nat) : Exact (pageEntry projections) :=
  exact_entryMetadata.bind fun _ => Block.exact_bytes.bind fun _ =>
    (exact_entryValues projections).bind fun _ => exact_pure _

theorem exact_pageEntries : Exact pageEntries := by
  refine Varint.exact_length.bind ?_
  intro count
  split
  · exact exact_pure _
  · exact Varint.exact_length.bind fun projections => (exact_pageEntry projections).many count

theorem exact_page : Exact page :=
  Block.exact_bytes.bind fun _ => exact_pageEntries.bind fun _ => exact_pure _

end Answer

theorem Operation.exact_answer (status : Status) (version : Version) (node : NodeAddress)
    {op : OpCode} (o : Operation op) : Exact (o.answer status version node) := by
  cases o with
  | put => exact Answer.exact_previous status
  | get => exact Answer.exact_ifPresent Block.exact_bytes status
  | putIfAbsent => exact Answer.exact_write status
  | replace => exact Answer.exact_write status
  | replaceIfUnmodified => exact Answer.exact_versioned _ status
  | remove => exact Answer.exact_write status
  | removeIfUnmodified => exact Answer.exact_versioned _ status
  | containsKey => exact exact_pure _
  | clear => exact exact_pure _
  | stats => exact Answer.exact_table (Answer.exact_pairOf Block.exact_text Block.exact_text)
  | ping => exact Answer.exact_ping version
  | getWithMetadata => exact Answer.exact_ifPresent MetadataValue.exact_reader status
  | bulkGetKeys => exact Block.exact_bytes.marked
  | authMechList => exact Varint.exact_length.bind fun count => Block.exact_text.many count
  | auth => exact exact_byte.bind fun _ => Block.exact_bytes.bind fun _ => exact_pure _
  | addClientListener => exact exact_pure _
  | removeClientListener => exact exact_pure _
  | size => exact Varint.exact_uint64
  | exec => exact Block.exact_bytes
  | putAll => exact exact_pure _
  | getAll => exact Answer.exact_table (Answer.exact_pairOf Block.exact_bytes Block.exact_bytes)
  | iterationStart => exact Block.exact_text.bind fun _ => exact_pure _
  | iterationNext cursor =>
      unfold answer
      split
      · exact exact_fail _
      · exact Answer.exact_page
  | iterationEnd => exact exact_pure _
  | getStream => exact Answer.exact_ifPresent MetadataValue.exact_reader status
  | putStream => exact exact_pure _
  | prepareTransaction => exact exact_int32

/-!
# All decoders
-/

/-- What the client decodes, with the type of its values. -/
inductive Decoder : Type → Type where
  | byte : Decoder UInt8
  | uint16 : Decoder UInt16
  | int32 : Decoder Int32
  | int64 : Decoder Int64
  | uint64 : Decoder UInt64
  | varint32 : Decoder UInt32
  | varint64 : Decoder UInt64
  | signedVarint : Decoder Int32
  | block : Decoder Bytes
  | text : Decoder String
  | optionalBlock : Decoder (Option Bytes)
  | optionalText : Decoder (Option String)
  | expiration : Decoder Expiration
  | topology (intelligence : Intelligence) : Decoder TopologyUpdate
  | requestHeader : Decoder RequestHeader
  | responseHeader (intelligence : Intelligence) : Decoder ResponseHeader
  | answer {op : OpCode} (o : Operation op) (status : Status) (version : Version)
      (node : NodeAddress) : Decoder op.Reply

namespace Decoder

def reader : {α : Type} → Decoder α → Reader α
  | _, byte => Reader.byte
  | _, uint16 => Reader.uint16
  | _, int32 => Reader.int32
  | _, int64 => Reader.int64
  | _, uint64 => Reader.uint64
  | _, varint32 => Varint.uint32
  | _, varint64 => Varint.uint64
  | _, signedVarint => Varint.int32
  | _, block => Block.bytes
  | _, text => Block.text
  | _, optionalBlock => Block.optionalBytes
  | _, optionalText => Block.optionalText
  | _, expiration => Expiration.reader
  | _, topology intelligence => TopologyUpdate.reader intelligence
  | _, requestHeader => RequestHeader.reader
  | _, responseHeader intelligence => ResponseHeader.reader intelligence
  | _, answer o status version node => o.answer status version node

theorem exact_reader {α : Type} (d : Decoder α) : Exact d.reader := by
  cases d with
  | byte => exact exact_byte
  | uint16 => exact exact_uint16
  | int32 => exact exact_int32
  | int64 => exact exact_int64
  | uint64 => exact exact_uint64
  | varint32 => exact Varint.exact_uint32
  | varint64 => exact Varint.exact_uint64
  | signedVarint => exact Varint.exact_int32
  | block => exact Block.exact_bytes
  | text => exact Block.exact_text
  | optionalBlock => exact Block.exact_optionalBytes
  | optionalText => exact Block.exact_optionalText
  | expiration => exact Expiration.exact_reader
  | topology intelligence => exact TopologyUpdate.exact_reader intelligence
  | requestHeader => exact RequestHeader.exact_reader
  | responseHeader intelligence => exact ResponseHeader.exact_reader intelligence
  | answer o status version node => exact o.exact_answer status version node

/-- What a decoder accepts is read off the first bytes of the buffer and the others are left. It
reads the same value off these bytes whatever follows them, and it breaks off with a fault of
the protocol if they are cut short. -/
theorem prefix_exact {α : Type} (d : Decoder α) {buffer rest : Bytes} {a : α}
    (h : d.reader buffer = (.ok a, rest)) :
    ∃ taken, buffer = taken ++ rest ∧ (∀ tail, d.reader (taken ++ tail) = (.ok a, tail)) ∧
      ∀ part, part <+: taken → part ≠ taken →
        ∃ f left, d.reader part = (.error (.protocol f), left) := by
  rcases d.exact_reader buffer a rest h with ⟨taken, hbuffer, hreads, hshort⟩
  exact ⟨taken, hbuffer, hreads, fun part hpart hne => hshort part ⟨hpart, hne⟩⟩

/-- An iteration's page with one segment and two entries; only the second has metadata. -/
def pageBytes : Bytes :=
  [1, 2, 2, 1, 0, 1, 107, 1, 118, 1, 3, 0, 0, 0, 0, 0, 0, 0, 9, 1, 108, 0]

def pageDecoder : Decoder Page :=
  answer (.iterationNext ⟨"i", ⟨"a", 1⟩⟩) ⟨0⟩ .v31 ⟨"a", 1⟩

def decodedPage : Page where
  finished := [1]
  entries :=
    [⟨[107], [118], none, []⟩, ⟨[108], [], some ⟨none, none, none, none, 9⟩, []⟩]

/-- A page is followed by one more byte. -/
theorem prefix_exact_page :
    pageDecoder.reader (pageBytes ++ [7]) = (.ok decodedPage, [7]) ∧
      ∃ taken, pageBytes ++ [7] = taken ++ [7] ∧
        (∀ tail, pageDecoder.reader (taken ++ tail) = (.ok decodedPage, tail)) ∧
        ∀ part, part <+: taken → part ≠ taken →
          ∃ f left, pageDecoder.reader part = (.error (.protocol f), left) := by
  have hread : pageDecoder.reader (pageBytes ++ [7]) = (.ok decodedPage, [7]) := by
    rfl
  exact ⟨hread, pageDecoder.prefix_exact hread⟩

end Decoder
end GridClient
