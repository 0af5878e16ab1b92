import GridClient.Proofs.Call.Journey
import GridClient.Proofs.Call.Positions

/-!
# Bulk calls

A bulk call is all or nothing. It returns a value only if each of its items has been in
exactly one group that was completed, and then the value is made up of the replies to these
groups; otherwise it returns an error. It never returns while an attempt is under way, and
never sends an item again that has been completed.
-/

namespace GridClient
namespace BulkRequest

variable {op : OpCode} {ι σ : Type}

theorem batches_isEmpty_iff (r : BulkRequest op ι) : r.batches.isEmpty = true ↔ r.items = [] := by
  rw [List.isEmpty_iff]
  constructor
  · intro h
    by_contra hitems
    rcases List.exists_mem_of_ne_nil _ hitems with ⟨item, hitem⟩
    have hgroup : (Target.forKey (r.batching.key item) r.topology [], r.items.filter fun other =>
        Target.forKey (r.batching.key other) r.topology [] =
          Target.forKey (r.batching.key item) r.topology []) ∈ r.batches := by
      refine mem_partition.2 ⟨?_, rfl⟩
      exact List.ne_nil_of_mem (List.mem_filter.2 ⟨hitem, decide_eq_true rfl⟩)
    rw [h] at hgroup
    cases hgroup
  · intro h
    rw [batches, h]
    rfl

/-- A bulk call makes rounds with its items, and asks for nothing else but pings. -/
theorem rounds_of_executeUntil {r : BulkRequest op ι} {deadline : Instant} {trace : Call.Trace σ}
    {stand : Call.Stand σ (Except ClientError op.Reply)}
    (hcarried : ∀ e ∈ trace, Call.Event.Carried e)
    (h : Call.Reaches (r.executeUntil deadline) trace stand) :
    ∃ xs, Rounds r deadline r.limit r.items r.batching.empty xs stand ∧
      Asks r deadline trace stand xs := by
  unfold executeUntil at h
  split at h
  · next hempty =>
    rcases Program.reaches_pure.1 h with ⟨rfl, rfl⟩
    rw [r.batches_isEmpty_iff.1 hempty]
    exact ⟨[], .nothing, .done _⟩
  · have hlimit : r.limit = r.limit - 1 + 1 := (Nat.sub_add_cancel (Nat.le_max_left _ _)).symm
    rw [hlimit] at h ⊢
    exact rounds_of_reaches hcarried h

/-- A call writes the frames of its groups, and pings. -/
theorem Asks.frames {r : BulkRequest op ι} {deadline : Instant} {trace : Call.Trace σ}
    {stand : Call.Stand σ (Except ClientError op.Reply)} {xs : List (Round op ι)}
    (h : Asks r deadline trace stand xs) {frame : Bytes} (hframe : Call.Writes trace stand frame) :
    (∃ t id version, frame = (r.cache.refreshPing t deadline).frame id version) ∨
      ∃ x ∈ xs, ∃ group ∈ x.groups, ∃ id version,
        frame = (r.attempt x.topology deadline group.1 group.2).frame id version := by
  rcases Call.eq_frame_of_writes hframe with ⟨other, a, id, version, rfl, hasked | hround⟩
  · rcases h.pings _ hasked a rfl with ⟨t, ht⟩
    cases ht
    exact Or.inl ⟨t, id, version, rfl⟩
  · rcases hround with ⟨as, outcomes, hround, ha⟩
    rw [h.rounds_eq] at hround
    rcases List.mem_map.1 hround with ⟨x, hx, heq⟩
    cases heq
    rcases List.mem_map.1 ha with ⟨group, hgroup, rfl⟩
    exact Or.inr ⟨x, hx, group, hgroup, id, version, rfl⟩

/-!
# All or nothing
-/

/-- The item at a position. -/
def atPosition (i : Nat) (item : ι × Nat) : Bool :=
  item.2 == i

theorem filter_atPosition {items : List ι} {i : Nat} (hi : i < items.length) :
    items.zipIdx.filter (atPosition i) = [(items[i], i)] := by
  apply filter_eq_singleton
  · apply List.Nodup.of_map Prod.snd
    rw [List.zipIdx_map_snd]
    exact List.nodup_range'
  · rw [List.mem_zipIdx_iff_getElem?]
    exact List.getElem?_eq_getElem hi
  · exact beq_self_eq_true i
  · intro item hitem hposition
    rcases item with ⟨item, j⟩
    have hj : j = i := beq_iff_eq.1 hposition
    subst hj
    rw [List.mem_zipIdx_iff_getElem?, List.getElem?_eq_getElem hi, Option.some_inj] at hitem
    rw [hitem]

theorem alike_atPosition (b : Batching op ι) {items : List ι} {i : Nat} (hi : i < items.length) :
    Alike (b.comap Prod.fst) (atPosition i) items.zipIdx := by
  refine ⟨b.key items[i], ?_⟩
  intro item hitem hposition
  have hmem : item ∈ items.zipIdx.filter (atPosition i) := List.mem_filter.2 ⟨hitem, hposition⟩
  rw [filter_atPosition hi, List.mem_singleton] at hmem
  rw [hmem]
  rfl

/-- How the item at a position fares. -/
theorem Rounds.journey_atPosition {r : BulkRequest op ι} {deadline : Instant} {left : Nat}
    {merged : op.Reply} {xs : List (Round op (ι × Nat))}
    {stand : Call.Stand σ (Except ClientError op.Reply)}
    (h : Rounds r.numbered deadline left r.items.zipIdx merged xs stand) {i : Nat}
    (hi : i < r.items.length) :
    ∃ fate, Journey (atPosition i) [(r.items[i], i)] xs fate ∧
      ∀ value, stand = .done (.ok value) → ∃ reply, fate = some (.completed reply) := by
  rw [← filter_atPosition hi]
  refine h.journey (alike_atPosition r.batching hi) ?_
  rw [filter_atPosition hi]
  exact List.cons_ne_nil _ _

/-- No group holds an item twice. -/
theorem Rounds.nodup_group [DecidableEq ι] {r : BulkRequest op ι} {deadline : Instant} {left : Nat}
    {merged : op.Reply} {xs : List (Round op (ι × Nat))}
    {stand : Call.Stand σ (Except ClientError op.Reply)}
    (h : Rounds r.numbered deadline left r.items.zipIdx merged xs stand) :
    ∀ x ∈ xs, ∀ group ∈ x.groups, group.2.Nodup := by
  intro x hx group hgroup
  rw [List.nodup_iff_count_le_one]
  intro item
  by_cases hitem : item ∈ group.2
  · have hgiven := h.mem_pending x hx group hgroup item hitem
    have hposition : atPosition item.2 item = true := beq_self_eq_true item.2
    have hheld := Round.mem_holding hgroup hitem hposition
    rcases h.journey_atPosition (List.snd_lt_of_mem_zipIdx hgiven) with ⟨fate, hjourney, -⟩
    rcases hjourney.together x hx with hnone | ⟨only, honly, hload⟩
    · rw [hnone] at hheld
      cases hheld
    · rw [honly, List.mem_singleton] at hheld
      rw [hheld, ← List.count_filter hposition, hload]
      exact List.count_le_length
  · rw [List.count_eq_zero_of_not_mem hitem]
    exact Nat.zero_le 1

/-- An account of a bulk call, finished or not. In its rounds the items carry their positions
along. -/
structure Account (r : BulkRequest op ι) (deadline : Instant) (trace : Call.Trace σ)
    (stand : Call.Stand σ (Except ClientError op.Reply)) (rounds : List (Round op (ι × Nat))) :
    Prop where
  /-- The rounds are all the rounds that the call has asked for. -/
  rounds_eq : Call.rounds trace stand = rounds.map (Round.sent r.numbered deadline)
  frames : ∀ frame, Call.Writes trace stand frame →
    (∃ t id version, frame = (r.cache.refreshPing t deadline).frame id version) ∨
      ∃ x ∈ rounds, ∃ group ∈ x.groups, ∃ id version, frame =
        (r.attempt x.topology deadline group.1 (group.2.map Prod.fst)).frame id version
  length_le : rounds.length ≤ r.limit
  mem_items : ∀ x ∈ rounds, ∀ group ∈ x.groups, ∀ item ∈ group.2, item ∈ r.items.zipIdx
  /-- A call does not return before all groups of its rounds have come back. -/
  awaited : ∀ result, stand = .done result → ∀ x ∈ rounds, x.Over r.numbered deadline
  delivered : ∀ value, stand = .done (.ok value) → ∀ i (hi : i < r.items.length),
    ∃ before x after, rounds = before ++ x :: after ∧
      Delivery (atPosition i) [(r.items[i], i)] before x after
  value_eq : ∀ value, stand = .done (.ok value) →
    value = (rounds.flatMap Round.replies).foldl r.batching.merge r.batching.empty
  /-- An item of a group that has been completed is in no later group. -/
  never_again : ∀ before x after, rounds = before ++ x :: after → ∀ part ∈ x.parts, ∀ reply,
    part.outcome = .completed reply → ∀ item ∈ part.items, ∀ y ∈ after, ∀ group ∈ y.groups,
      item ∉ group.2
  failed : ∀ x ∈ rounds, ∀ e, x.failure? = some e → stand = .done (.error e)
  /-- Items that are still to be sent again after the last round make the call fail. -/
  spent : ∀ before x, rounds = before ++ [x] → x.Unsettled → ∀ result, stand = .done result →
    rounds.length = r.limit ∧ ∃ text, result = .error (.topologyUnstable r.limit text)
  settled : ∀ before x, rounds = before ++ [x] → x.Over r.numbered deadline →
    x.failure? = none → x.retried = [] → ∃ value, stand = .done (.ok value)

/-- Two nodes, each of which owns one of two segments first. -/
def splitTopology : Topology where
  epoch := 1
  intelligence := .hashDistributionAware
  servers := [⟨"a", 1⟩, ⟨"b", 1⟩]
  segments := some ⟨[[⟨"a", 1⟩, ⟨"b", 1⟩], [⟨"b", 1⟩, ⟨"a", 1⟩]], by decide⟩

/-- A request whose keys belong to both nodes; one key is asked for twice. -/
def splitGet : BulkRequest .getAll Bytes where
  cache := { name := "", config := {}, intelligence := .hashDistributionAware }
  batching := .getAll
  items := [[1], [2], [1]]
  flags := .none
  topology := splitTopology

/-- The second node is lost; its key is then asked for at the first one. -/
def splitTrace : Call.Trace Unit :=
  let t := splitTopology
  let lost : Outcome OpCode.getAll.Reply := .retryConnectivity (.transport "gone")
  [⟨.record (.fanout "get_all" 2), ()⟩,
    ⟨.round [splitGet.attempt t 9 (.address ⟨"a", 1⟩) [[1], [1]],
        splitGet.attempt t 9 (.address ⟨"b", 1⟩) [[2]]] (arrival .getAll),
      [(1, lost), (0, .completed [([1], [7])])]⟩,
    ⟨.topology [], t⟩,
    ⟨.attempt (splitGet.cache.refreshPing t 9), .retryConnectivity (.transport "gone")⟩,
    ⟨.topology [], t⟩,
    ⟨.record (.fanout "get_all" 1), ()⟩,
    ⟨.round [splitGet.attempt t 9 (.address ⟨"a", 1⟩) [[2]]] (arrival .getAll),
      [(0, .completed [([2], [8])])]⟩]

theorem reaches_splitTrace :
    Call.Reaches (splitGet.executeUntil 9) splitTrace (.done (.ok [([1], [7]), ([2], [8])])) :=
  .answered _ (.answered _ (.answered _ (.answered _ (.answered _ (.answered _ (.answered _
    (.done _)))))))

end BulkRequest
end GridClient
