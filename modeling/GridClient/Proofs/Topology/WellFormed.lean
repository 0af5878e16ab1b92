import GridClient.Proofs.Wire.Lengths
import GridClient.Topology.Update

/-!
# Well-formed topologies

A topology can be sent if its table of owners goes with a hash function and refers to its
servers, and if its counts fit their fields. Then it is read as it was sent, as far as the
reader is told of it, and every topology that is read can be sent on.
-/

namespace GridClient

open Reader

namespace TopologyUpdate

/-- The owners of a segment: so many that one byte counts them, all of them servers. -/
def SegmentFits (servers : Nat) (owners : List UInt32) : Prop :=
  owners.length ≤ 255 ∧ ∀ index ∈ owners, index.toNat < servers

instance (servers : Nat) (owners : List UInt32) : Decidable (SegmentFits servers owners) :=
  -- goes through the owners, not through all positions of 32 bits
  have : Decidable (∀ index ∈ owners, index.toNat < servers) := List.decidableBAll _ owners
  instDecidableAnd

/-- The hash function and the table of owners come together, the table refers to servers that are
listed, and all counts and lengths fit their fields. -/
structure WellFormed (u : TopologyUpdate) : Prop where
  table_iff : u.hashFunction ≠ 0 ↔ u.owners.isSome
  servers_fit : u.servers.length < UInt32.size
  hosts_fit : ∀ a ∈ u.servers, (Bytes.ofText a.host).length < UInt32.size
  table_fits : ∀ table ∈ u.owners,
    table.length < UInt32.size ∧ ∀ owners ∈ table, SegmentFits u.servers.length owners

/-- Only clients that route by hash are told the owners of the segments. -/
def seenBy (u : TopologyUpdate) (intelligence : Intelligence) : TopologyUpdate :=
  if intelligence = .hashDistributionAware then u else { u with hashFunction := 0, owners := none }

/-!
# What is sent is read
-/

theorem reads_server {a : NodeAddress} (h : (Bytes.ofText a.host).length < UInt32.size) :
    server.Reads (serverBytes a) a :=
  (Block.reads_text h).bind ((reads_uint16 a.port).bind_pure _)

theorem reads_owner {servers : Nat} {index : UInt32} (h : index.toNat < servers) (place : Nat) :
    (owner servers place).Reads (Varint.ofUInt32 index) index := by
  apply (Varint.reads_uint32 index).bind_nil
  rw [if_pos h]
  exact reads_pure index

theorem reads_segment {servers : Nat} {owners : List UInt32} (h : SegmentFits servers owners)
    (place : Nat) : (segment servers place).Reads (segmentBytes owners) owners := by
  have hcount : (UInt8.ofNat owners.length).toNat = owners.length :=
    UInt8.toNat_ofNat_of_lt' (Nat.lt_succ_of_le h.1)
  apply Reads.byte_bind
  rw [hcount]
  exact reads_many fun index hindex => reads_owner (h.2 index hindex) place

theorem reads_reader {u : TopologyUpdate} (h : u.WellFormed) (intelligence : Intelligence) :
    (reader intelligence).Reads (u.toBytes intelligence) (u.seenBy intelligence) := by
  refine (Varint.reads_uint32 _).bind ((Varint.reads_length h.servers_fit).bind
    ((reads_many fun a ha => reads_server (h.hosts_fit a ha)).bind ?_))
  unfold seenBy
  split
  · unfold tableBytes
    rcases u with ⟨id, servers, hashFunction, _ | table⟩
    · have hzero : hashFunction = 0 := by
        simpa using h.table_iff
      subst hzero
      exact reads_pure _
    · have hfits := h.table_fits table rfl
      have hhash : hashFunction ≠ 0 := h.table_iff.2 rfl
      dsimp only
      rw [if_neg hhash]
      apply Reads.byte_bind
      rw [if_neg hhash]
      have htable := reads_manyFrom (fun owners howners => reads_segment (hfits.2 owners howners)) 0
      exact (Varint.reads_length hfits.1).bind (htable.bind_pure _)
  · exact reads_pure _

/-!
# What is read can be sent
-/

theorem ensures_server :
    server.Ensures fun a => (Bytes.ofText a.host).length < UInt32.size :=
  Block.ensures_text.bind fun _ hhost => (ensures_true _).bind fun _ _ => ensures_pure hhost

theorem ensures_owner (servers place : Nat) :
    (owner servers place).Ensures fun index => index.toNat < servers := by
  refine (ensures_true _).bind ?_
  intro index _
  split
  · next h => exact ensures_pure h
  · exact ensures_fault _

theorem ensures_segment (servers place : Nat) :
    (segment servers place).Ensures (SegmentFits servers) := by
  refine (ensures_true _).bind ?_
  intro count _ buffer owners rest h
  have howners := (ensures_owner servers place).many count.toNat buffer owners rest h
  exact ⟨howners.1 ▸ Nat.le_of_lt_succ count.toNat_lt, howners.2⟩

theorem ensures_reader (intelligence : Intelligence) :
    (reader intelligence).Ensures fun u => u.WellFormed ∧ u.seenBy intelligence = u := by
  refine (ensures_true _).bind fun id _ => Varint.ensures_length.bind fun count hcount =>
    (ensures_server.many count).bind ?_
  intro servers hservers
  have hlength : servers.length < UInt32.size := hservers.1 ▸ hcount
  unfold seenBy
  split
  · refine (ensures_true _).bind ?_
    intro hashFunction _
    split
    · next hzero =>
      exact ensures_pure ⟨⟨by simp [hzero], hlength, hservers.2, nofun⟩, rfl⟩
    · next hhash =>
      refine Varint.ensures_length.bind fun segments hsegments =>
        (ensures_manyFrom (ensures_segment servers.length) 0 segments).bind ?_
      intro table htable
      refine ensures_pure ⟨⟨by simp [hhash], hlength, hservers.2, ?_⟩, rfl⟩
      rintro _ ⟨⟩
      exact ⟨htable.1 ▸ hsegments, htable.2⟩
  · exact ensures_pure ⟨⟨by simp, hlength, hservers.2, nofun⟩, rfl⟩

end TopologyUpdate
end GridClient
