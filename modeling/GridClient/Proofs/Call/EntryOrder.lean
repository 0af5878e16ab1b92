import GridClient.Proofs.Call.Bulk
import GridClient.Proofs.Frame.Request
import Mathlib.Data.List.Perm.Subperm

/-!
# The order of entries in bulk writes

A bulk write may name a key several times; the last value is to stay. However the entries are
grouped and sent again, those for one key are never separated and never change their order. A
server that reads a frame gets the entries of one group, in the order of the group.
-/

namespace GridClient
namespace BulkRequest

variable {σ : Type}

/-- The entry concerns a key. -/
def hasKey (key : Bytes) (item : (Bytes × Bytes) × Nat) : Bool :=
  item.1.1 == key

theorem alike_hasKey (e : Expiration) (key : Bytes) (items : List ((Bytes × Bytes) × Nat)) :
    Alike ((Batching.putAll e).comap Prod.fst) (hasKey key) items :=
  ⟨key, fun _ _ hkey => beq_iff_eq.1 hkey⟩

theorem map_filter_hasKey (key : Bytes) (items : List ((Bytes × Bytes) × Nat)) :
    (items.filter (hasKey key)).map Prod.fst =
      (items.map Prod.fst).filter fun entry => entry.1 == key := by
  rw [List.filter_map]
  rfl

/-- A group with all the items for a key has all the entries that were given for it, in order. -/
theorem filter_entries_eq {key : Bytes} {entries : List (Bytes × Bytes)}
    {group : List ((Bytes × Bytes) × Nat)}
    (h : group.filter (hasKey key) = entries.zipIdx.filter (hasKey key)) :
    ((group.map Prod.fst).filter fun entry => entry.1 == key) =
      entries.filter fun entry => entry.1 == key := by
  rw [← map_filter_hasKey, h, map_filter_hasKey, List.zipIdx_map_fst]

/-!
# What a frame carries
-/

/-- A frame carries entries. Behind the header and the expiration stands the number of the
entries, and behind it one entry after the other, each with its key first. -/
structure Carries (header : RequestHeader) (e : Expiration) (entries : List (Bytes × Bytes))
    (frame : Bytes) : Prop where
  written : frame = header.toBytes ++ (e.toBytes ++ (Varint.ofLength entries.length ++
    entries.flatMap fun entry => Block.ofBytes entry.1 ++ Block.ofBytes entry.2))
  /-- A server gets just these entries, in this order, as long as the format has room for their
  number and their lengths. -/
  received : header.cache.length < UInt32.size → (Operation.putAll entries e).Fits →
    Operation.received? .putAll frame = some (header, .putAll entries e)

/-- A group of a bulk write has completed a key: its attempt has written one frame, which
carries all the entries for the key. -/
structure Completes (r : BulkRequest .putAll (Bytes × Bytes)) (e : Expiration)
    (deadline : Instant) (x : Round .putAll ((Bytes × Bytes) × Nat)) (key : Bytes)
    (target : Target) (group : List ((Bytes × Bytes) × Nat)) : Prop where
  mem : (target, group) ∈ x.groups
  holding : x.holding (hasKey key) = [group]
  frame : ∃ run frame id version,
    Exchange.Reaches (r.attempt x.topology deadline target (group.map Prod.fst)).run run
        (.done (.completed ())) ∧
      Exchange.frames run (.done (Outcome.completed ())) = [frame] ∧
        Carries ((r.attempt x.topology deadline target (group.map Prod.fst)).header id version) e
          (group.map Prod.fst) frame
  entries : (group.map Prod.fst).filter (fun entry => entry.1 == key) =
    r.items.filter fun entry => entry.1 == key

/-- An account of the order in which a bulk write, finished or not, sends its entries. -/
structure OrderAccount (r : BulkRequest .putAll (Bytes × Bytes)) (e : Expiration)
    (deadline : Instant) (trace : Call.Trace σ)
    (stand : Call.Stand σ (Except ClientError Unit))
    (rounds : List (Round .putAll ((Bytes × Bytes) × Nat))) : Prop where
  /-- The rounds are all the rounds that the call has asked for. -/
  rounds_eq : Call.rounds trace stand = rounds.map (Round.sent r.numbered deadline)
  frames : ∀ frame, Call.Writes trace stand frame →
    (∃ t id version, frame = (r.cache.refreshPing t deadline).frame id version) ∨
      ∃ x ∈ rounds, ∃ group ∈ x.groups, ∃ id version, Carries
        ((r.attempt x.topology deadline group.1 (group.2.map Prod.fst)).header id version) e
          (group.2.map Prod.fst) frame
  /-- With an entry for a key, a frame has all the entries that were given for it, in order. -/
  whole : ∀ x ∈ rounds, ∀ group ∈ x.groups, ∀ entry ∈ group.2.map Prod.fst,
    ((group.2.map Prod.fst).filter fun other => other.1 == entry.1) =
      r.items.filter fun other => other.1 == entry.1
  /-- If the format has room for all the entries it has room for those of each group. -/
  fits : (Operation.putAll r.items e).Fits → ∀ x ∈ rounds, ∀ group ∈ x.groups,
    (Operation.putAll (group.2.map Prod.fst) e).Fits
  /-- As long as the entries for a key are to be sent, they are all in one group, in the order
  in which they were given. -/
  journey : ∀ key ∈ r.items.map Prod.fst, ∃ fate,
    Journey (hasKey key) (r.items.zipIdx.filter (hasKey key)) rounds fate
  /-- Whenever entries for a key are sent, all of them go into one frame, in the given order. -/
  together : ∀ key ∈ r.items.map Prod.fst, ∀ x ∈ rounds, x.holding (hasKey key) = [] ∨
    ∃ group, x.holding (hasKey key) = [group] ∧
      (group.map Prod.fst).filter (fun entry => entry.1 == key) =
        r.items.filter fun entry => entry.1 == key
  /-- The last value given for a key is the last one for it in the frame that completes it. -/
  completed : stand = .done (.ok ()) → ∀ key value,
    (r.items.filter fun entry => entry.1 == key).getLast? = some (key, value) →
      ∃ before x after target group, rounds = before ++ x :: after ∧
        Delivery (hasKey key) (r.items.zipIdx.filter (hasKey key)) before x after ∧
          Completes r e deadline x key target group ∧
            ((group.map Prod.fst).filter fun entry => entry.1 == key).getLast? = some (key, value)

variable {r : BulkRequest .putAll (Bytes × Bytes)} {e : Expiration} {deadline : Instant}

/-- Entries go into the frame of a group in the order in which the group holds them. -/
theorem carries_frame (hbatching : r.batching = .putAll e) (t : Topology) (target : Target)
    (entries : List (Bytes × Bytes)) (id : UInt64) (version : Version) :
    Carries ((r.attempt t deadline target entries).header id version) e entries
      ((r.attempt t deadline target entries).frame id version) := by
  have hoperation : (r.attempt t deadline target entries).operation = .putAll entries e := by
    change r.batching.operation entries = _
    rw [hbatching]
    rfl
  constructor
  case written =>
    rw [Attempt.frame, hoperation]
    rfl
  case received =>
    intro hcache hfits
    rw [← hoperation] at hfits
    rw [Attempt.received?_frame (by decide) hcache hfits, hoperation]
    rfl

/-- Entries that are all among those of a call, none of them twice, need no more room. -/
theorem fits_group {entries : List (Bytes × Bytes)} {group : List ((Bytes × Bytes) × Nat)}
    (h : (Operation.putAll entries e).Fits) (hnodup : group.Nodup)
    (hgroup : ∀ item ∈ group, item ∈ entries.zipIdx) :
    (Operation.putAll (group.map Prod.fst) e).Fits := by
  rcases h with ⟨hexpiration, hlength, hentries⟩
  have hle : group.length ≤ entries.length := by
    have hsubperm := (hnodup.subperm hgroup).length_le
    rwa [List.length_zipIdx] at hsubperm
  refine ⟨hexpiration, ?_, ?_⟩
  · rw [List.length_map]
    exact Nat.lt_of_le_of_lt hle hlength
  · intro entry hentry
    rcases List.mem_map.1 hentry with ⟨item, hitem, rfl⟩
    exact hentries item.1 (List.fst_mem_of_mem_zipIdx (hgroup item hitem))

theorem filter_hasKey_ne_nil {key : Bytes} {entries : List (Bytes × Bytes)}
    (hkey : key ∈ entries.map Prod.fst) : entries.zipIdx.filter (hasKey key) ≠ [] := by
  intro hnil
  have hnone := map_filter_hasKey key entries.zipIdx
  rw [hnil, List.zipIdx_map_fst] at hnone
  rcases List.mem_map.1 hkey with ⟨entry, hentry, rfl⟩
  exact List.filter_eq_nil_iff.1 hnone.symm entry hentry (beq_self_eq_true _)

/-- The group that delivers a key completes it. -/
theorem completes_of_delivery (hbatching : r.batching = .putAll e) {key : Bytes}
    {before after : List (Round .putAll ((Bytes × Bytes) × Nat))}
    {x : Round .putAll ((Bytes × Bytes) × Nat)} (hover : x.Over r.numbered deadline)
    (h : Delivery (hasKey key) (r.items.zipIdx.filter (hasKey key)) before x after) :
    ∃ target group, Completes r e deadline x key target group := by
  rcases h.holding with ⟨group, hgroup, hload⟩
  rcases h.fates with ⟨reply, hfates⟩
  rcases Round.part_of_fates hover hgroup hfates with ⟨part, hpart, rfl, houtcome⟩
  refine ⟨part.target, part.items, ?_⟩
  constructor
  case mem => exact Round.group_of_mem_parts hpart
  case holding => exact hgroup
  case frame =>
    rcases Round.reaches_of_mem_parts hover hpart with ⟨run, hrun⟩
    rw [houtcome] at hrun
    rcases Attempt.frames_run hrun with ⟨-, hopen⟩ | ⟨id, version, hframes⟩
    · exact absurd rfl (hopen reply)
    · exact ⟨run, _, id, version, hrun, hframes, carries_frame hbatching _ _ _ id version⟩
  case entries => exact filter_entries_eq hload

/-- In a bulk write the entries for one key stay together and in order, and the frame that
completes the key carries them all. -/
theorem entries_in_order {trace : Call.Trace σ} {stand : Call.Stand σ (Except ClientError Unit)}
    (hbatching : r.batching = .putAll e) (hcarried : ∀ e ∈ trace, Call.Event.Carried e)
    (h : Call.Reaches (r.executeUntil deadline) trace stand) :
    ∃ rounds, OrderAccount r e deadline trace stand rounds := by
  rw [← r.executeUntil_numbered] at h
  rcases rounds_of_executeUntil hcarried h with ⟨xs, hrounds, hasks⟩
  have hnumbered : r.numbered.batching = (Batching.putAll e).comap Prod.fst := by
    rw [← hbatching]
    rfl
  have hjourney : ∀ key ∈ r.items.map Prod.fst, ∃ fate,
      Journey (hasKey key) (r.items.zipIdx.filter (hasKey key)) xs fate ∧
        ∀ value, stand = .done (.ok value) → ∃ reply, fate = some (.completed reply) := by
    intro key hkey
    refine hrounds.journey ?_ (filter_hasKey_ne_nil hkey)
    rw [hnumbered]
    exact alike_hasKey e key _
  have htogether : ∀ key ∈ r.items.map Prod.fst, ∀ x ∈ xs, x.holding (hasKey key) = [] ∨
      ∃ group, x.holding (hasKey key) = [group] ∧
        (group.map Prod.fst).filter (fun entry => entry.1 == key) =
          r.items.filter fun entry => entry.1 == key := by
    intro key hkey x hx
    rcases hjourney key hkey with ⟨fate, hfate, -⟩
    refine (hfate.together x hx).imp_right ?_
    intro hsent
    rcases hsent with ⟨group, hgroup, hload⟩
    exact ⟨group, hgroup, filter_entries_eq hload⟩
  refine ⟨xs, ?_⟩
  constructor
  case rounds_eq => exact hasks.rounds_eq
  case frames =>
    intro frame hframe
    rcases hasks.frames hframe with hping | ⟨x, hx, group, hgroup, id, version, rfl⟩
    · exact Or.inl hping
    · exact Or.inr ⟨x, hx, group, hgroup, id, version, carries_frame hbatching _ _ _ id version⟩
  case whole =>
    intro x hx group hgroup entry hentry
    rcases List.mem_map.1 hentry with ⟨item, hitem, rfl⟩
    have hgiven := List.fst_mem_of_mem_zipIdx (hrounds.mem_pending x hx group hgroup item hitem)
    have hheld : group.2 ∈ x.holding (hasKey item.1.1) :=
      Round.mem_holding hgroup hitem (beq_self_eq_true item.1.1)
    rcases htogether item.1.1 (List.mem_map_of_mem hgiven) x hx with hnone | ⟨only, honly, hload⟩
    · rw [hnone] at hheld
      cases hheld
    · rw [honly, List.mem_singleton] at hheld
      rw [hheld]
      exact hload
  case fits =>
    intro hfits x hx group hgroup
    exact fits_group hfits (hrounds.nodup_group x hx group hgroup)
      (hrounds.mem_pending x hx group hgroup)
  case journey =>
    intro key hkey
    rcases hjourney key hkey with ⟨fate, hfate, -⟩
    exact ⟨fate, hfate⟩
  case together => exact htogether
  case completed =>
    intro hdone key value hlast
    have hkey : key ∈ r.items.map Prod.fst :=
      List.mem_map.2 ⟨_, List.mem_of_mem_filter (List.mem_of_getLast? hlast), rfl⟩
    rcases hjourney key hkey with ⟨fate, hfate, hok⟩
    rcases hok () hdone with ⟨reply, rfl⟩
    rcases hfate.delivery rfl with ⟨before, x, after, rfl, hdelivery⟩
    have hover : x.Over r.numbered deadline := hrounds.over_of_done hdone x (by simp)
    rcases completes_of_delivery hbatching hover hdelivery with ⟨target, group, hcompletes⟩
    refine ⟨before, x, after, target, group, rfl, hdelivery, hcompletes, ?_⟩
    rw [hcompletes.entries]
    exact hlast

/-- A bulk write that gives one key two values. -/
def splitPut : BulkRequest .putAll (Bytes × Bytes) where
  cache := { name := "", config := {}, intelligence := .hashDistributionAware }
  batching := .putAll {}
  items := [([1], [5]), ([2], [6]), ([1], [7])]
  flags := .none
  topology := splitTopology

/-- The first node is lost; its entries then go to the second one. -/
def resentTrace : Call.Trace Unit :=
  let t := splitTopology
  let lost : Outcome OpCode.putAll.Reply := .retryConnectivity (.transport "gone")
  [⟨.record (.fanout "put_all" 2), ()⟩,
    ⟨.round [splitPut.attempt t 9 (.address ⟨"a", 1⟩) [([1], [5]), ([1], [7])],
        splitPut.attempt t 9 (.address ⟨"b", 1⟩) [([2], [6])]] (arrival .putAll),
      [(1, .completed ()), (0, lost)]⟩,
    ⟨.topology [], t⟩,
    ⟨.attempt (splitPut.cache.refreshPing t 9), .retryConnectivity (.transport "gone")⟩,
    ⟨.topology [], t⟩,
    ⟨.record (.fanout "put_all" 1), ()⟩,
    ⟨.round [splitPut.attempt t 9 (.address ⟨"b", 1⟩) [([1], [5]), ([1], [7])]]
        (arrival .putAll), [(0, .completed ())]⟩]

theorem reaches_resentTrace :
    Call.Reaches (splitPut.executeUntil 9) resentTrace (.done (.ok ())) :=
  .answered _ (.answered _ (.answered _ (.answered _ (.answered _ (.answered _ (.answered _
    (.done _)))))))

theorem carried_resentTrace : ∀ e ∈ resentTrace, Call.Event.Carried e := by
  have hfirst : ∃ run, Exchange.Reaches
      (splitPut.attempt splitTopology 9 (.address ⟨"b", 1⟩) [([2], [6])]).run run
        (.done (.completed ())) :=
    Attempt.reaches_answered _ 5 ⟨2, ⟨"b", 1⟩, .v31⟩ [0xA1, 5, 0x2E, 0, 0] rfl
  have hlast : ∃ run, Exchange.Reaches
      (splitPut.attempt splitTopology 9 (.address ⟨"b", 1⟩) [([1], [5]), ([1], [7])]).run run
        (.done (.completed ())) :=
    Attempt.reaches_answered _ 8 ⟨2, ⟨"b", 1⟩, .v31⟩ [0xA1, 8, 0x2E, 0, 0] rfl
  rcases hfirst with ⟨first, hfirst⟩
  rcases hlast with ⟨last, hlast⟩
  have hlost := (splitPut.attempt splitTopology 9 (.address ⟨"a", 1⟩)
    [([1], [5]), ([1], [7])]).reaches_unacquired 6 (e := .transport "gone") rfl
  have hping := (splitPut.cache.refreshPing splitTopology 9).reaches_unacquired 7
    (e := .transport "gone") rfl
  unfold resentTrace
  simp only [List.forall_mem_cons]
  exact ⟨.atOnce id, .round (.first [(0, _)] [] hfirst (.first [] [] hlost .none)), .atOnce id,
    .attempt hping, .atOnce id, .atOnce id, .round (.first [] [] hlast .none), by simp⟩

theorem fits_splitPut : (Operation.putAll splitPut.items {}).Fits :=
  ⟨⟨trivial, trivial⟩, by decide, by decide⟩

theorem entries_in_order_resent :
    splitPut.batching = .putAll {} ∧ (∀ e ∈ resentTrace, Call.Event.Carried e) ∧
      Call.Reaches (splitPut.executeUntil 9) resentTrace (.done (.ok ())) ∧
        splitPut.cache.key.length < UInt32.size ∧ (Operation.putAll splitPut.items {}).Fits ∧
          ∃ rounds, OrderAccount splitPut {} 9 resentTrace (.done (.ok ())) rounds :=
  ⟨rfl, carried_resentTrace, reaches_resentTrace, by decide, fits_splitPut,
    entries_in_order rfl carried_resentTrace reaches_resentTrace⟩

end BulkRequest
end GridClient
