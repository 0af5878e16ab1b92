import GridClient.Frame.Response
import GridClient.Proofs.Topology.WellFormed

/-!
# Response headers read back

A header that is sent with a well-formed topology is read as it was sent, as far as the reader
is told of the topology. A header that was read can be sent on without a change.
-/

namespace GridClient

open Reader

namespace ResponseHeader

/-- The header as it is read by a client that may not be told the owners of the segments. -/
def seenBy (h : ResponseHeader) (intelligence : Intelligence) : ResponseHeader :=
  { h with topology := h.topology.map fun u => u.seenBy intelligence }

theorem reads_topologyReader {topology : Option TopologyUpdate}
    (h : ∀ u ∈ topology, u.WellFormed) (intelligence : Intelligence) :
    (topologyReader intelligence).Reads (topologyBytes intelligence topology)
      (topology.map fun u => u.seenBy intelligence) := by
  cases topology with
  | none => exact Reads.byte_bind (reads_pure none)
  | some u =>
      apply Reads.byte_bind
      exact (TopologyUpdate.reads_reader (h u rfl) intelligence).bind_pure some

theorem reads_reader {h : ResponseHeader} (hwell : ∀ u ∈ h.topology, u.WellFormed)
    (intelligence : Intelligence) :
    (reader intelligence).Reads (h.toBytes intelligence) (h.seenBy intelligence) := by
  apply Reads.byte_bind
  rw [if_pos rfl]
  apply (Varint.reads_uint64 h.messageId).bind
  apply Reads.byte_bind
  apply Reads.byte_bind
  exact (reads_topologyReader hwell intelligence).bind_pure _

theorem ensures_topologyReader (intelligence : Intelligence) :
    (topologyReader intelligence).Ensures fun topology =>
      ∀ u ∈ topology, u.WellFormed ∧ u.seenBy intelligence = u := by
  refine (ensures_true _).bind ?_
  intro marker _
  split
  · exact ensures_pure nofun
  · refine (TopologyUpdate.ensures_reader intelligence).bind fun u hu => ensures_pure ?_
    rintro _ ⟨⟩
    exact hu
  · exact ensures_fault _

theorem ensures_reader (intelligence : Intelligence) :
    (reader intelligence).Ensures fun h =>
      ∀ u ∈ h.topology, u.WellFormed ∧ u.seenBy intelligence = u := by
  refine (ensures_true _).bind ?_
  intro found _
  split
  · exact (ensures_true _).bind fun _ _ => (ensures_true _).bind fun _ _ =>
      (ensures_true _).bind fun _ _ => (ensures_topologyReader intelligence).bind fun _ htopology =>
        ensures_pure htopology
  · exact ensures_fault _

theorem seenBy_eq_self {h : ResponseHeader} {intelligence : Intelligence}
    (hseen : ∀ u ∈ h.topology, u.seenBy intelligence = u) : h.seenBy intelligence = h := by
  unfold seenBy
  rw [Option.map_congr hseen, Option.map_id']

/-- What is sent with a well-formed topology or with none is read back, whatever follows it, by a
client of the same intelligence. All topologies that are read are well formed, and a header that
is read and sent on is read again as it was. -/
theorem sent_and_read (intelligence : Intelligence) :
    (∀ h : ResponseHeader, (∀ u ∈ h.topology, u.WellFormed) → ∀ tail,
      reader intelligence (h.toBytes intelligence ++ tail) =
        (.ok (h.seenBy intelligence), tail)) ∧
    (∀ buffer u rest, TopologyUpdate.reader intelligence buffer = (.ok u, rest) →
      u.WellFormed) ∧
    ∀ buffer h rest, reader intelligence buffer = (.ok h, rest) →
      (∀ u ∈ h.topology, u.WellFormed) ∧
        ∀ tail, reader intelligence (h.toBytes intelligence ++ tail) = (.ok h, tail) := by
  constructor
  · intro h hwell
    exact reads_reader hwell intelligence
  · constructor
    · intro buffer u rest hread
      exact (TopologyUpdate.ensures_reader intelligence buffer u rest hread).1
    · intro buffer h rest hread
      have htopology := ensures_reader intelligence buffer h rest hread
      have hwell : ∀ u ∈ h.topology, u.WellFormed := fun u hu => (htopology u hu).1
      have hseen : h.seenBy intelligence = h := seenBy_eq_self fun u hu => (htopology u hu).2
      have hreads := reads_reader hwell intelligence
      rw [hseen] at hreads
      exact ⟨hwell, hreads⟩

/-- Two servers and three segments, one of them with no owner. -/
def ownersMoved : TopologyUpdate where
  id := -1
  servers := [⟨"a", 11222⟩, ⟨"b", 11223⟩]
  hashFunction := 3
  owners := some [[0, 1], [1], []]

def headerWithOwners : ResponseHeader where
  messageId := 300
  opCode := 0x04
  status := ⟨0⟩
  topology := some ownersMoved

def ownersMovedBytes : Bytes :=
  [0xA1, 172, 2, 0x04, 0, 1, 255, 255, 255, 255, 15, 2, 1, 97, 43, 214, 1, 98, 43, 215,
    3, 3, 2, 0, 1, 1, 1, 0]

/-- The bytes are followed by one more. -/
theorem sent_and_read_owners :
    reader .hashDistributionAware (ownersMovedBytes ++ [9]) = (.ok headerWithOwners, [9]) ∧
      (∀ u ∈ headerWithOwners.topology, u.WellFormed) ∧
      (∀ tail, reader .hashDistributionAware
        (headerWithOwners.toBytes .hashDistributionAware ++ tail) = (.ok headerWithOwners, tail)) ∧
      ∀ tail, reader .topologyAware (headerWithOwners.toBytes .topologyAware ++ tail) =
        (.ok { headerWithOwners with
          topology := some { ownersMoved with hashFunction := 0, owners := none } }, tail) := by
  have hread : reader .hashDistributionAware (ownersMovedBytes ++ [9]) =
      (.ok headerWithOwners, [9]) := by
    rfl
  have hwell : ∀ u ∈ headerWithOwners.topology, u.WellFormed := by
    rintro _ ⟨⟩
    constructor
    · decide
    · decide
    · decide
    · rintro _ ⟨⟩
      decide
  have hagain := (sent_and_read .hashDistributionAware).2.2 _ _ _ hread
  exact ⟨hread, hagain.1, hagain.2, (sent_and_read .topologyAware).1 headerWithOwners hwell⟩

end ResponseHeader
end GridClient
