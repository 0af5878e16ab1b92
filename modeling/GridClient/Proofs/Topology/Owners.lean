import GridClient.Proofs.Hash.Segment
import GridClient.Proofs.Topology.Standing
import GridClient.Proofs.Topology.WellFormed
import Mathlib.Data.List.Basic

/-!
# Tables of owners

A server that knows the owners of every segment sends each address once, in a list of servers,
and the owners as positions in that list. A client that routes by hash gets the table back and
looks up the owners of a key in it.
-/

namespace GridClient

/-!
# Addresses and their positions
-/

section Positions

variable {α β ε : Type}

/-- Without its repetitions a list stays in the order of first appearance. -/
theorem pairwise_eraseDups [BEq α] [LawfulBEq α] (l : List α) :
    l.eraseDups.Pairwise fun a b => l.idxOf a < l.idxOf b := by
  induction l using List.reverseRecOn with
  | nil => exact List.Pairwise.nil
  | append_singleton l a ih =>
      have hold : l.eraseDups.Pairwise fun b c => (l ++ [a]).idxOf b < (l ++ [a]).idxOf c := by
        apply ih.imp_of_mem
        intro b c hb hc hlt
        rwa [List.idxOf_append_of_mem (List.mem_eraseDups.1 hb),
          List.idxOf_append_of_mem (List.mem_eraseDups.1 hc)]
      rw [List.eraseDups_append]
      by_cases ha : a ∈ l
      · have hnone : [a].removeAll l = [] := by simp [List.removeAll, ha]
        rwa [hnone, List.eraseDups_nil, List.append_nil]
      · have hone : ([a].removeAll l).eraseDups = [a] := by
          simp [List.removeAll, ha, List.eraseDups_cons]
        rw [hone, List.pairwise_append]
        refine ⟨hold, List.pairwise_singleton _ a, ?_⟩
        intro b hb c hc
        have hb := List.mem_eraseDups.1 hb
        have hc := List.mem_singleton.1 hc
        subst hc
        rw [List.idxOf_append_of_mem hb, List.idxOf_append_of_notMem ha]
        exact Nat.lt_add_right _ (List.idxOf_lt_length_of_mem hb)

/-- What is undone item by item is undone for the whole list. -/
theorem mapM_map_eq_ok {f : β → Except ε α} {g : α → β} {l : List α}
    (h : ∀ a ∈ l, f (g a) = .ok a) : (l.map g).mapM f = .ok l := by
  induction l with
  | nil => rfl
  | cons a l ih =>
      rw [List.map_cons, List.mapM_cons, h a List.mem_cons_self,
        ih fun b hb => h b (List.mem_cons_of_mem a hb)]
      rfl

end Positions

namespace SegmentMap

variable {servers : List NodeAddress} {table : List (List NodeAddress)}

theorem serverAt_idxOf (hservers : servers.length < UInt32.size) {a : NodeAddress}
    (ha : a ∈ servers) : serverAt servers (UInt32.ofNat (servers.idxOf a)) = .ok a := by
  have hplace : servers.idxOf a < UInt32.size :=
    Nat.lt_trans (List.idxOf_lt_length_of_mem ha) hservers
  unfold serverAt
  rw [UInt32.toNat_ofNat_of_lt' hplace, List.getElem?_idxOf ha]

/-- Positions in the list of servers stand for the servers. -/
theorem ofIndices_idxOf (hservers : servers.length < UInt32.size) (hne : table ≠ [])
    (hmem : ∀ owners ∈ table, ∀ a ∈ owners, a ∈ servers) :
    ofIndices servers
        (table.map fun owners => owners.map fun a => UInt32.ofNat (servers.idxOf a)) =
      .ok ⟨table, hne⟩ := by
  have hback : (table.map fun owners => owners.map fun a => UInt32.ofNat (servers.idxOf a)).mapM
      (fun indices => indices.mapM (serverAt servers)) = .ok table := by
    apply mapM_map_eq_ok
    intro owners howners
    apply mapM_map_eq_ok
    intro a ha
    exact serverAt_idxOf hservers (hmem owners howners a ha)
  unfold ofIndices
  rw [hback]
  exact dif_neg hne

end SegmentMap

/-!
# Tables that can be sent
-/

/-- The counts and lengths in a table of owners fit their fields. These are limits of the wire
format, which has one byte for the number of owners of a segment, and a number of 32 bits for that
of the segments, for that of the servers and for the length of a host. -/
structure OwnersFit (table : List (List NodeAddress)) : Prop where
  owners_fit : ∀ owners ∈ table, owners.length ≤ 255
  segments_fit : table.length < UInt32.size
  servers_fit : table.flatten.eraseDups.length < UInt32.size
  hosts_fit : ∀ owners ∈ table, ∀ a ∈ owners, (Bytes.ofText a.host).length < UInt32.size

variable {table : List (List NodeAddress)}

theorem mem_servers {a : NodeAddress} :
    a ∈ table.flatten.eraseDups ↔ ∃ owners ∈ table, a ∈ owners := by
  rw [List.mem_eraseDups, List.mem_flatten]

theorem TopologyUpdate.wellFormed_ofOwners (id : Int32) (h : OwnersFit table) :
    (ofOwners id table).WellFormed := by
  constructor
  case table_iff =>
    apply iff_of_true
    · show murmur3 ≠ 0
      decide
    · rfl
  case servers_fit => exact h.servers_fit
  case hosts_fit =>
    intro a ha
    rcases mem_servers.1 ha with ⟨owners, howners, ha⟩
    exact h.hosts_fit owners howners a ha
  case table_fits =>
    rintro _ ⟨⟩
    rw [List.length_map]
    refine ⟨h.segments_fit, ?_⟩
    intro indices hindices
    rcases List.mem_map.1 hindices with ⟨owners, howners, rfl⟩
    constructor
    · rw [List.length_map]
      exact h.owners_fit owners howners
    · intro index hindex
      rcases List.mem_map.1 hindex with ⟨a, ha, rfl⟩
      rw [UInt32.toNat_ofNat']
      exact Nat.lt_of_le_of_lt (Nat.mod_le _ _)
        (List.idxOf_lt_length_of_mem (mem_servers.2 ⟨owners, howners, ha⟩))

/-- The topology that a table of owners describes, for a client that routes by hash. -/
def Topology.ofTable (id : Int32) (table : List (List NodeAddress)) (hne : table ≠ []) :
    Topology where
  epoch := id
  intelligence := .hashDistributionAware
  servers := table.flatten.eraseDups
  segments := some ⟨table, hne⟩

theorem Topology.ofUpdate_ofOwners (id : Int32) (hne : table ≠ []) (h : OwnersFit table) :
    ofUpdate (.ofOwners id table) .hashDistributionAware = .ok (ofTable id table hne) := by
  have hmap := SegmentMap.ofIndices_idxOf h.servers_fit hne fun owners howners a ha =>
    mem_servers.2 ⟨owners, howners, ha⟩
  unfold ofUpdate TopologyUpdate.ofOwners
  dsimp only
  rw [if_pos rfl, hmap]
  rfl

/-- The bytes of a table tell the topology that it describes. -/
theorem Registry.Notice.content_ofOwners (id : Int32) (hne : table ≠ []) (h : OwnersFit table) :
    content .hashDistributionAware
        (.payload ((TopologyUpdate.ofOwners id table).toBytes .hashDistributionAware)) =
      .ok (.ofTable id table hne) := by
  have hread := TopologyUpdate.reads_reader (TopologyUpdate.wellFormed_ofOwners id h)
    .hashDistributionAware []
  rw [List.append_nil] at hread
  show ((TopologyUpdate.reader .hashDistributionAware
      ((TopologyUpdate.ofOwners id table).toBytes .hashDistributionAware)).1 >>= fun u =>
    Topology.ofUpdate u .hashDistributionAware) = _
  rw [hread]
  exact Topology.ofUpdate_ofOwners id hne h

/-!
# Tables that are followed
-/

namespace Topology

/-- The topology has the owners of the table, segment by segment, and finds those of a key in the
table. Its servers are the distinct addresses of the table, as they first appear in it. -/
structure Follows (t : Topology) (table : List (List NodeAddress)) : Prop where
  owners_eq : ∃ m, t.segments = some m ∧ m.count.toNat = table.length ∧
    ∀ s (h : s < table.length), m.ownersOfSegment (UInt32.ofNat s) = table[s]
  key_eq : ∀ key, ∃ h : (Hash.segmentOf key (UInt32.ofNat table.length)).toNat < table.length,
    t.ownersOf key = table[(Hash.segmentOf key (UInt32.ofNat table.length)).toNat]
  mem_servers_iff : ∀ a, a ∈ t.servers ↔ ∃ owners ∈ table, a ∈ owners
  servers_order : t.servers.Pairwise fun a b => table.flatten.idxOf a < table.flatten.idxOf b

theorem follows_ofTable (id : Int32) (hne : table ≠ []) (h : table.length < UInt32.size) :
    (ofTable id table hne).Follows table := by
  have hcount : (UInt32.ofNat table.length).toNat = table.length := UInt32.toNat_ofNat_of_lt' h
  constructor
  case owners_eq =>
    refine ⟨⟨table, hne⟩, rfl, hcount, ?_⟩
    intro s hs
    unfold SegmentMap.ownersOfSegment
    rw [UInt32.toNat_ofNat_of_lt' (Nat.lt_trans hs h)]
    dsimp only
    rw [List.getElem?_eq_getElem hs]
    rfl
  case key_eq =>
    intro key
    have hpos : UInt32.ofNat table.length ≠ 0 := by
      intro hzero
      rw [hzero] at hcount
      exact hne (List.length_eq_zero_iff.1 hcount.symm)
    have hsegment := UInt32.lt_iff_toNat_lt.1 (Hash.segmentOf_lt_count key hpos)
    rw [hcount] at hsegment
    refine ⟨hsegment, ?_⟩
    show (table[(Hash.segmentOf key (UInt32.ofNat table.length)).toNat]?).getD [] = _
    rw [List.getElem?_eq_getElem hsegment]
    rfl
  case mem_servers_iff =>
    intro a
    exact mem_servers
  case servers_order => exact pairwise_eraseDups table.flatten

end Topology

namespace Registry

/-- Whatever a registry has been asked to do before, the bytes of a table of owners that is newer
than the topology of a cache install it for that cache, and keys are routed by the table. -/
theorem push_follows (seeds : List NodeAddress) (commands : List Command) (cache : Bytes)
    {id : Int32} (hne : table ≠ []) (hfits : OwnersFit table)
    (hnewer : (((ofServers .hashDistributionAware seeds).runAll commands).used cache).epoch < id) :
    ∃ s, ((ofServers .hashDistributionAware seeds).runAll commands).push cache
        ((TopologyUpdate.ofOwners id table).toBytes .hashDistributionAware) = .ok (true, s) ∧
      (s.current cache).epoch = id ∧ (s.current cache).Follows table := by
  have hstands := Stands.runAll .hashDistributionAware seeds commands
  generalize (ofServers .hashDistributionAware seeds).runAll commands = r at hstands hnewer ⊢
  have hpush := (hstands.notify_eq (Notice.content_ofOwners id hne hfits) cache).1
  have hepoch : (r.used cache).epoch < (Topology.ofTable id table hne).epoch := hnewer
  rw [offer_eq hstands.unlisted, if_pos hepoch] at hpush
  have hcurrent : ((r.touch cache).install cache (.ofTable id table hne)).current cache =
      .ofTable id table hne := by
    rw [current_eq (get?_install (get?_touch hstands.unlisted cache) cache _), own?_install,
      if_pos rfl]
    rfl
  refine ⟨_, hpush, ?_⟩
  rw [hcurrent]
  exact ⟨rfl, Topology.follows_ofTable id hne hfits.segments_fit⟩

/-- Four segments, one without owners; both addresses own two of them. -/
def sharedOwners : List (List NodeAddress) :=
  [[⟨"b", 11223⟩, ⟨"a", 11222⟩], [⟨"a", 11222⟩], [], [⟨"b", 11223⟩]]

/-- A cache goes from its fourth topology, with no owners, to its fifth. -/
theorem push_follows_shared :
    ∃ s, ((ofServers .hashDistributionAware [⟨"s", 1⟩]).runAll
        [.notify [98] (.update ⟨4, [⟨"a", 11222⟩], 0, none⟩)]).push [98]
          [5, 2, 1, 98, 43, 215, 1, 97, 43, 214, 3, 4, 2, 0, 1, 1, 1, 0, 1, 0] = .ok (true, s) ∧
      (s.current [98]).epoch = 5 ∧ (s.current [98]).Follows sharedOwners := by
  have hne : sharedOwners ≠ [] := by decide
  have hfits : OwnersFit sharedOwners := by
    constructor
    · decide
    · decide
    · decide
    · decide
  have hbytes : (TopologyUpdate.ofOwners 5 sharedOwners).toBytes .hashDistributionAware =
      [5, 2, 1, 98, 43, 215, 1, 97, 43, 214, 3, 4, 2, 0, 1, 1, 1, 0, 1, 0] := by
    decide +kernel
  rw [← hbytes]
  exact push_follows [⟨"s", 1⟩] [.notify [98] (.update ⟨4, [⟨"a", 11222⟩], 0, none⟩)] [98] hne
    hfits (by decide)

end Registry
end GridClient
