import GridClient.Call.Request
import Mathlib.Data.List.Induction

/-!
# Diagnostics and routing

Requests for a key go by the table of owners, to the primary owner of its segment. For those who
route by themselves a topology is also told address by address: of which segments an address is
the primary owner, and of which it is an owner at all. All three describe the same assignment.
-/

namespace GridClient
namespace SegmentMap

variable {t : Table NodeAddress SegmentSet} {a b : NodeAddress} {segment : UInt32}
  {segments : SegmentSet} {cs : List (NodeAddress × Nat)} {m : SegmentMap}

/-!
# Crediting segments
-/

/-- The segment is in the set that the table has for the address. -/
def Lists (t : Table NodeAddress SegmentSet) (a : NodeAddress) (segment : UInt32) : Prop :=
  ∃ segments, Table.get? t a = some segments ∧ segment ∈ segments

theorem lists_iff_of_get? (h : Table.get? t a = some segments) :
    Lists t a segment ↔ segment ∈ segments := by
  unfold Lists
  rw [h]
  simp

theorem not_lists_of_get? (h : Table.get? t a = none) : ¬ Lists t a segment := by
  intro h
  rcases h with ⟨segments, hsegments, -⟩
  rw [h] at hsegments
  cases hsegments

theorem lists_credit (t : Table NodeAddress SegmentSet) (a b : NodeAddress) (i : Nat)
    (segment : UInt32) :
    Lists (credit t b i) a segment ↔ (b = a ∧ segment = UInt32.ofNat i) ∨ Lists t a segment := by
  unfold credit
  by_cases h : b = a
  · subst h
    rw [lists_iff_of_get? (Table.get?_alter_self t b _), SegmentSet.mem_insert, eq_self, true_and]
    refine or_congr_right ?_
    cases hold : Table.get? t b with
    | none => exact iff_of_false List.not_mem_nil (not_lists_of_get? hold)
    | some segments => exact (lists_iff_of_get? hold).symm
  · unfold Lists
    rw [Table.get?_alter_of_ne t _ (Ne.symm h)]
    simp [h]

theorem contains_credit (t : Table NodeAddress SegmentSet) (a b : NodeAddress) (i : Nat) :
    Table.contains (credit t b i) a = true ↔ b = a ∨ Table.contains t a = true := by
  unfold credit Table.contains
  by_cases h : b = a
  · subst h
    rw [Table.get?_alter_self]
    simp
  · rw [Table.get?_alter_of_ne t _ (Ne.symm h)]
    simp [h]

/-- Puts segments into the sets of addresses, one after the other. -/
def creditAll (t : Table NodeAddress SegmentSet) (cs : List (NodeAddress × Nat)) :
    Table NodeAddress SegmentSet :=
  cs.foldl (fun t c => credit t c.1 c.2) t

theorem creditAll_cons (t : Table NodeAddress SegmentSet) (c : NodeAddress × Nat)
    (cs : List (NodeAddress × Nat)) :
    creditAll t (c :: cs) = creditAll (credit t c.1 c.2) cs :=
  rfl

theorem lists_creditAll :
    Lists (creditAll t cs) a segment ↔
      Lists t a segment ∨ ∃ c ∈ cs, c.1 = a ∧ segment = UInt32.ofNat c.2 := by
  induction cs generalizing t with
  | nil => simp [creditAll]
  | cons c cs ih =>
      rw [creditAll_cons, ih, lists_credit, or_assoc, or_left_comm]
      simp only [List.mem_cons, exists_eq_or_imp]

theorem contains_creditAll :
    Table.contains (creditAll t cs) a = true ↔
      Table.contains t a = true ∨ ∃ c ∈ cs, c.1 = a := by
  induction cs generalizing t with
  | nil => simp [creditAll]
  | cons c cs ih =>
      rw [creditAll_cons, ih, contains_credit, or_assoc, or_left_comm]
      simp only [List.mem_cons, exists_eq_or_imp]

theorem nodup_keys_creditAll (h : (Table.keys t).Nodup) :
    (Table.keys (creditAll t cs)).Nodup := by
  induction cs generalizing t with
  | nil => exact h
  | cons c cs ih => exact ih (Table.nodup_keys_alter h c.1 _)

/-- An address that has a set of segments has been credited with one of them. -/
theorem exists_mem_of_creditAll (h : Table.get? (creditAll [] cs) a = some segments) :
    ∃ segment, segment ∈ segments := by
  have hcontains : Table.contains (creditAll [] cs) a = true := by
    unfold Table.contains
    rw [h]
    rfl
  rcases contains_creditAll.1 hcontains with hnone | ⟨c, hc, ha⟩
  · cases hnone
  · refine ⟨UInt32.ofNat c.2, (lists_iff_of_get? h).1 ?_⟩
    exact lists_creditAll.2 (Or.inr ⟨c, hc, ha, rfl⟩)

/-!
# The credits of a map
-/

/-- Those of the owners of each segment that are named. -/
def credits (m : SegmentMap) (named : List NodeAddress → List NodeAddress) :
    List (NodeAddress × Nat) :=
  m.owners.zipIdx.flatMap fun entry => (named entry.1).map fun a => (a, entry.2)

theorem primaries_eq (m : SegmentMap) :
    m.primaries = creditAll [] (m.credits fun owners => owners.head?.toList) := by
  unfold primaries creditAll credits
  rw [List.foldl_flatMap]
  congr 1
  funext t entry
  dsimp only
  cases entry.1.head? <;> rfl

theorem creditOwners_eq (m : SegmentMap) (t : Table NodeAddress SegmentSet) :
    m.creditOwners t = creditAll t (m.credits id) := by
  unfold creditOwners creditAll credits
  rw [List.foldl_flatMap]
  simp only [List.foldl_map, id_eq]

theorem mem_credits {named : List NodeAddress → List NodeAddress} {c : NodeAddress × Nat} :
    c ∈ m.credits named ↔ ∃ owners, m.owners[c.2]? = some owners ∧ c.1 ∈ named owners := by
  unfold credits
  rw [List.mem_flatMap]
  constructor
  · intro h
    rcases h with ⟨⟨owners, i⟩, hentry, hc⟩
    rcases List.mem_map.1 hc with ⟨a, ha, rfl⟩
    exact ⟨owners, List.mem_zipIdx_iff_getElem?.1 hentry, ha⟩
  · intro h
    rcases h with ⟨owners, howners, ha⟩
    exact ⟨(owners, c.2), List.mem_zipIdx_iff_getElem?.2 howners, List.mem_map.2 ⟨c.1, ha, rfl⟩⟩

/-- With 32 bits for the number of a segment, no two segments of the map share one. -/
theorem exists_credit_iff (h : m.owners.length < UInt32.size)
    {named : List NodeAddress → List NodeAddress} (hnone : named [] = []) :
    (∃ c ∈ m.credits named, c.1 = a ∧ segment = UInt32.ofNat c.2) ↔
      a ∈ named (m.ownersOfSegment segment) := by
  unfold ownersOfSegment
  constructor
  · intro h
    rcases h with ⟨c, hc, rfl, rfl⟩
    rcases mem_credits.1 hc with ⟨owners, howners, ha⟩
    rcases List.getElem?_eq_some_iff.1 howners with ⟨hlt, -⟩
    rw [UInt32.toNat_ofNat_of_lt' (Nat.lt_trans hlt h), howners]
    exact ha
  · intro ha
    cases howners : m.owners[segment.toNat]? with
    | none =>
        rw [howners, Option.getD_none, hnone] at ha
        cases ha
    | some owners =>
        rw [howners] at ha
        exact ⟨(a, segment.toNat), mem_credits.2 ⟨owners, howners, ha⟩, rfl,
          UInt32.ofNat_toNat.symm⟩

end SegmentMap

/-!
# Routing
-/

/-- While no node has failed, requests for a key go to its primary owner. -/
theorem Target.forKey_nil (key : Bytes) (t : Topology) :
    forKey key t [] = (t.primaryOwner key).elim any address := by
  unfold forKey Topology.primaryOwner
  cases t.ownersOf key <;> rfl

namespace Topology

open SegmentMap

variable {t : Topology} {a b : NodeAddress} {segment : UInt32}

/-- Those of the owners of each segment that are named, if any owners are known. -/
def credits (t : Topology) (named : List NodeAddress → List NodeAddress) :
    List (NodeAddress × Nat) :=
  t.segments.elim [] fun m => m.credits named

theorem exists_credit_iff (hcount : ∀ m ∈ t.segments, m.owners.length < UInt32.size)
    {named : List NodeAddress → List NodeAddress} (hnone : named [] = []) :
    (∃ c ∈ t.credits named, c.1 = a ∧ segment = UInt32.ofNat c.2) ↔
      ∃ m, t.segments = some m ∧ a ∈ named (m.ownersOfSegment segment) := by
  unfold credits
  cases hm : t.segments with
  | none => simp
  | some m =>
      rw [Option.elim_some, SegmentMap.exists_credit_iff (hcount m hm) hnone]
      simp

/-!
# Primary owners
-/

theorem primaries_eq (t : Topology) :
    t.primaries = creditAll [] (t.credits fun owners => owners.head?.toList) := by
  unfold primaries credits
  cases t.segments with
  | none => rfl
  | some m => exact m.primaries_eq

theorem lists_primaries (hcount : ∀ m ∈ t.segments, m.owners.length < UInt32.size) :
    Lists t.primaries a segment ↔
      ∃ m, t.segments = some m ∧ m.primaryOfSegment segment = some a := by
  rw [primaries_eq, lists_creditAll, exists_credit_iff hcount rfl]
  simp only [Option.mem_toList]
  exact or_iff_right (not_lists_of_get? rfl)

/-- The primary owner of a key is the address that its segment is listed under. -/
theorem primaryOwner_eq_some_iff (hcount : ∀ m ∈ t.segments, m.owners.length < UInt32.size)
    (key : Bytes) : t.primaryOwner key = some a ↔
      ∃ segment, t.segmentOf key = some segment ∧ Lists t.primaries a segment := by
  simp only [lists_primaries hcount]
  unfold primaryOwner ownersOf segmentOf
  cases t.segments with
  | none => simp
  | some m =>
      simp only [Option.map_some, Option.some.injEq, exists_eq_left']
      rfl

/-!
# Servers and owners
-/

/-- The table that has no segments for any server yet. -/
def serverTable (servers : List NodeAddress) : Table NodeAddress SegmentSet :=
  servers.foldl (fun table a => Table.insert table a .empty) []

theorem serverTable_concat (servers : List NodeAddress) (a : NodeAddress) :
    serverTable (servers ++ [a]) = Table.insert (serverTable servers) a .empty :=
  List.foldl_append

theorem get?_serverTable (servers : List NodeAddress) (a : NodeAddress) :
    Table.get? (serverTable servers) a = if a ∈ servers then some .empty else none := by
  induction servers using List.reverseRecOn with
  | nil => rfl
  | append_singleton servers b ih =>
      rw [serverTable_concat, Table.get?_insert, ih]
      by_cases h : a = b <;> simp [h]

theorem nodup_keys_serverTable (servers : List NodeAddress) :
    (Table.keys (serverTable servers)).Nodup := by
  induction servers using List.reverseRecOn with
  | nil => exact List.nodup_nil
  | append_singleton servers b ih =>
      rw [serverTable_concat]
      exact Table.nodup_keys_alter ih b _

theorem not_lists_serverTable (servers : List NodeAddress) :
    ¬ Lists (serverTable servers) a segment := by
  intro h
  rcases h with ⟨segments, hsegments, hmem⟩
  rw [get?_serverTable] at hsegments
  split at hsegments
  · cases hsegments
    cases hmem
  · cases hsegments

theorem contains_serverTable (servers : List NodeAddress) :
    Table.contains (serverTable servers) a = true ↔ a ∈ servers := by
  unfold Table.contains
  rw [get?_serverTable]
  split
  · next h => exact iff_of_true rfl h
  · next h => exact iff_of_false Bool.false_ne_true h

theorem info_segments_eq (t : Topology) :
    t.info.segments = creditAll (serverTable t.servers) (t.credits id) := by
  unfold info credits
  cases t.segments with
  | none => rfl
  | some m => exact m.creditOwners_eq (serverTable t.servers)

theorem lists_info_iff (hcount : ∀ m ∈ t.segments, m.owners.length < UInt32.size) :
    Lists t.info.segments a segment ↔ ∃ m, t.segments = some m ∧ a ∈ m.ownersOfSegment segment := by
  rw [info_segments_eq, lists_creditAll, exists_credit_iff hcount rfl]
  exact or_iff_right (not_lists_serverTable t.servers)

theorem contains_info_iff (hcount : ∀ m ∈ t.segments, m.owners.length < UInt32.size) :
    Table.contains t.info.segments a = true ↔
      a ∈ t.servers ∨ ∃ m segment, t.segments = some m ∧ a ∈ m.ownersOfSegment segment := by
  rw [info_segments_eq, contains_creditAll, contains_serverTable]
  refine or_congr_right ?_
  have hcredit : ∀ segment, (∃ c ∈ t.credits id, c.1 = a ∧ segment = UInt32.ofNat c.2) ↔
      ∃ m, t.segments = some m ∧ a ∈ m.ownersOfSegment segment :=
    fun segment => exists_credit_iff hcount rfl
  constructor
  · intro h
    rcases h with ⟨c, hc, ha⟩
    rcases (hcredit _).1 ⟨c, hc, ha, rfl⟩ with ⟨m, howner⟩
    exact ⟨m, _, howner⟩
  · intro h
    rcases h with ⟨m, segment, howner⟩
    rcases (hcredit segment).2 ⟨m, howner⟩ with ⟨c, hc, ha, -⟩
    exact ⟨c, hc, ha⟩

/-!
# One assignment
-/

theorem lists_info_of_lists_primaries (hcount : ∀ m ∈ t.segments, m.owners.length < UInt32.size)
    (h : Lists t.primaries a segment) : Lists t.info.segments a segment := by
  rcases (lists_primaries hcount).1 h with ⟨m, hm, hprimary⟩
  exact (lists_info_iff hcount).2 ⟨m, hm, List.mem_of_head? hprimary⟩

/-- A segment has one primary owner. -/
theorem eq_of_lists_primaries (hcount : ∀ m ∈ t.segments, m.owners.length < UInt32.size)
    (ha : Lists t.primaries a segment) (hb : Lists t.primaries b segment) : a = b := by
  rcases (lists_primaries hcount).1 ha with ⟨m, hm, hprimary⟩
  rcases (lists_primaries hcount).1 hb with ⟨m', hm', hprimary'⟩
  cases hm.symm.trans hm'
  exact Option.some.inj (hprimary.symm.trans hprimary')

/-- What is told of a topology, and where its requests go, is the same assignment of segments. -/
structure Described (t : Topology) : Prop where
  /-- Each address comes once. -/
  primaries_keys : (Table.keys t.primaries).Nodup
  info_keys : (Table.keys t.info.segments).Nodup
  address_iff : ∀ key a, Target.forKey key t [] = .address a ↔
    ∃ segment, t.segmentOf key = some segment ∧ Lists t.primaries a segment
  any_iff : ∀ key, Target.forKey key t [] = .any ↔
    t.segmentOf key = none ∨
      ∃ segment, t.segmentOf key = some segment ∧ ∀ a, ¬ Lists t.primaries a segment
  primaries_nonempty : ∀ a segments, Table.get? t.primaries a = some segments →
    ∃ segment, segment ∈ segments
  primaries_disjoint : ∀ a b segments others, a ≠ b → Table.get? t.primaries a = some segments →
    Table.get? t.primaries b = some others → ∀ segment ∈ segments, segment ∉ others
  info_iff : ∀ a segment, Lists t.info.segments a segment ↔
    ∃ m, t.segments = some m ∧ a ∈ m.ownersOfSegment segment
  info_addresses : ∀ a, Table.contains t.info.segments a = true ↔
    a ∈ t.servers ∨ ∃ m segment, t.segments = some m ∧ a ∈ m.ownersOfSegment segment
  /-- Primary owners are owners. -/
  included : ∀ a segments, Table.get? t.primaries a = some segments →
    ∃ owned, Table.get? t.info.segments a = some owned ∧ ∀ segment ∈ segments, segment ∈ owned

/-- With and without owners that are known, and whether or not all owners are servers: as long as
segments are counted in 32 bits, those who go by what is told of a topology and those who go by
the topology itself send the requests for a key to the same address. -/
theorem described_as_routed (hcount : ∀ m ∈ t.segments, m.owners.length < UInt32.size) :
    t.Described := by
  constructor
  case primaries_keys =>
    rw [primaries_eq]
    exact nodup_keys_creditAll List.nodup_nil
  case info_keys =>
    rw [info_segments_eq]
    exact nodup_keys_creditAll (nodup_keys_serverTable t.servers)
  case address_iff =>
    intro key a
    rw [Target.forKey_nil, ← primaryOwner_eq_some_iff hcount]
    cases t.primaryOwner key <;> simp
  case any_iff =>
    intro key
    have hnone : Target.forKey key t [] = .any ↔ ∀ a, t.primaryOwner key ≠ some a := by
      rw [Target.forKey_nil]
      cases t.primaryOwner key <;> simp
    rw [hnone]
    simp only [ne_eq, primaryOwner_eq_some_iff hcount]
    cases t.segmentOf key <;> simp
  case primaries_nonempty =>
    intro a segments h
    rw [primaries_eq] at h
    exact exists_mem_of_creditAll h
  case primaries_disjoint =>
    intro a b segments others hne ha hb segment hsegment hother
    exact hne (eq_of_lists_primaries hcount ⟨segments, ha, hsegment⟩ ⟨others, hb, hother⟩)
  case info_iff =>
    intro a segment
    exact lists_info_iff hcount
  case info_addresses =>
    intro a
    exact contains_info_iff hcount
  case included =>
    intro a segments h
    have hlisted : ∀ segment ∈ segments, Lists t.info.segments a segment :=
      fun segment hsegment => lists_info_of_lists_primaries hcount ⟨segments, h, hsegment⟩
    rw [primaries_eq] at h
    rcases exists_mem_of_creditAll h with ⟨first, hfirst⟩
    rcases hlisted first hfirst with ⟨owned, howned, -⟩
    refine ⟨owned, howned, ?_⟩
    intro segment hsegment
    exact (lists_iff_of_get? howned).1 (hlisted segment hsegment)

/-- One of three segments has no owner, and another one has an owner that is not a server. -/
def sparse : Topology where
  epoch := 7
  intelligence := .hashDistributionAware
  servers := [⟨"a", 1⟩, ⟨"b", 1⟩]
  segments := some ⟨[[⟨"b", 1⟩, ⟨"a", 1⟩], [], [⟨"c", 1⟩]], by decide⟩

theorem described_as_routed_sparse :
    (∀ m ∈ sparse.segments, m.owners.length < UInt32.size) ∧ sparse.Described ∧
      Target.forKey [1] sparse [] = .any ∧ Target.forKey [2] sparse [] = .address ⟨"c", 1⟩ ∧
      ⟨"c", 1⟩ ∉ sparse.servers ∧ Lists sparse.info.segments ⟨"c", 1⟩ 2 := by
  have hcount : ∀ m ∈ sparse.segments, m.owners.length < UInt32.size := by
    rintro _ ⟨⟩
    decide
  have hdescribed := described_as_routed hcount
  have hownerless : sparse.segmentOf [1] = some 1 := by decide +kernel
  have howned : sparse.segmentOf [2] = some 2 := by decide +kernel
  have hlisted : Lists sparse.primaries ⟨"c", 1⟩ 2 := ⟨_, rfl, by decide⟩
  refine ⟨hcount, hdescribed, ?_, ?_, by decide, ?_⟩
  · refine (hdescribed.any_iff [1]).2 (Or.inr ⟨1, hownerless, ?_⟩)
    intro a hlists
    rcases (lists_primaries hcount).1 hlists with ⟨_, ⟨⟩, hprimary⟩
    cases hprimary
  · exact (hdescribed.address_iff [2] _).2 ⟨2, howned, hlisted⟩
  · exact (hdescribed.info_iff _ _).2 ⟨_, rfl, by decide⟩

end Topology
end GridClient
