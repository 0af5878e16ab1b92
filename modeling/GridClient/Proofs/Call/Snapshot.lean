import GridClient.Proofs.Attempt.Numbers
import GridClient.Proofs.Call.Bulk
import GridClient.Proofs.Call.Routing
import GridClient.Proofs.Frame.Request

/-!
# One topology for each frame

A frame carries the epoch of one topology, and it goes to the node that the same topology has
for its keys. So whatever a call hears of the topology in the meantime, a server that is told
of an epoch is the one that the client has found under that epoch.
-/

namespace GridClient

/-!
# Frames
-/

/-- A frame has been sent to a target, with an operation for a cache, under the epoch of a
topology. It is the epoch that a server reads in the header, if the format has room for the name of
the cache before it. -/
structure SentUnder {op : OpCode} (t : Topology) (cache : Bytes) (operation : Operation op)
    (target : Target) (run : Exchange.Trace) (frame : Bytes) : Prop where
  lent : ∃ deadline channel, ⟨.acquire target deadline, .ready (.ok channel)⟩ ∈ run
  framed : ∃ header : RequestHeader, frame = header.toBytes ++ operation.body ∧
    (cache.length < UInt32.size → RequestHeader.reader frame = (.ok header, operation.body)) ∧
      header.opCode = op.code ∧ header.cache = cache ∧ header.topologyId = t.epoch

theorem Attempt.sentUnder {op : OpCode} {a : Attempt op} {run : Exchange.Trace}
    {stand : Exchange.Stand (Outcome op.Reply)} {frame : Bytes}
    (h : Exchange.Reaches a.run run stand) (hframe : frame ∈ Exchange.frames run stand) :
    SentUnder a.topology a.cache a.operation a.target run frame := by
  rcases sent_of_reaches h with ⟨id, -, hsent⟩
  rcases hsent frame hframe with ⟨channel, hlent, rfl⟩
  refine ⟨⟨a.deadline, channel, hlent⟩, a.header id channel.version, rfl, ?_, rfl, rfl, rfl⟩
  exact fun hcache => reader_frame hcache id channel.version

namespace Call

variable {σ α : Type} {op : OpCode}

/-- The topology is the one that a call is bound to, or it was current when the call read it. -/
def Current (bound : Topology) (cache : Bytes) (known : Registry) (before : Trace σ)
    (t : Topology) : Prop :=
  t = bound ∨ t ∈ readings cache before ∧ ∃ s, known.Evolves s ∧ t = s.current cache

/-- Every frame of a call goes by one topology. If it is not a ping, which goes to any node, it
goes to the target that this topology has for all its keys, whichever of the nodes that are
tried at the same time may be gone already. -/
def OneTopology (bound : Topology) (cache : RemoteCache) (known : Registry)
    (sends : Operation op → List Bytes → Prop) (trace : Trace σ) (stand : Stand σ α) : Prop :=
  ∀ (before : Trace σ) (q : Ask σ), Program.AskedAfter trace stand before q →
    ∀ {other : OpCode} (others : List (Attempt other)) (a : Attempt other)
      (gone : List NodeAddress), q.MakesBeside others a → Gone before others gone →
        ∀ run inner frame, Exchange.Reaches a.run run inner → frame ∈ Exchange.frames run inner →
          ∃ t, Current bound cache.key known before t ∧
            ((∃ operation keys target, sends operation keys ∧
                SentUnder t cache.key operation target run frame ∧
                  ∀ key ∈ keys, target.Best t gone key) ∨
              SentUnder t cache.key (.ping none) .any run frame)

theorem current_latest {known : Registry} {trace before : Trace σ} {stand : Stand σ α} {q : Ask σ}
    (hhears : Hears known trace) (hasked : Program.AskedAfter trace stand before q)
    (bound : Topology) (cache : Bytes) :
    Current bound cache known before (latest bound cache before) := by
  unfold latest
  cases hlast : (readings cache before).getLast? with
  | none => exact Or.inl rfl
  | some t =>
      have hread : t ∈ readings cache before := List.mem_of_getLast? hlast
      refine Or.inr ⟨hread, current_of_reading hhears ?_⟩
      rcases hasked with ⟨answer, after, rfl⟩ | ⟨rfl, -⟩
      · rw [readings_append]
        exact List.mem_append_left _ hread
      · exact hread

theorem oneTopology_of_heeds {known : Registry} {bound : Topology} {cache : RemoteCache}
    {deadline : Instant} {sends : Operation op → List Bytes → Prop} {p : Call σ α}
    {trace : Trace σ} {stand : Stand σ α} (hhears : Hears known trace)
    (hheeds : Program.Heeds (Fits bound cache deadline sends) [] p)
    (h : Reaches p trace stand) : OneTopology bound cache known sends trace stand := by
  intro before q hasked other others a gone hmakes hgone run inner frame hrun hframe
  have hrouted := hheeds.fits_of_askedAfter h hasked a others gone hmakes hgone
  refine ⟨_, current_latest hhears hasked bound cache.key, ?_⟩
  cases hrouted with
  | own hcache hsends hbest =>
      subst hcache
      exact Or.inl ⟨_, _, _, hsends, Attempt.sentUnder hrun hframe, hbest⟩
  | ping => exact Or.inr (Attempt.sentUnder hrun hframe)

end Call

/-!
# Requests
-/

namespace Request

variable {op : OpCode} {σ : Type}

/-- What the attempts at a request send, and the keys that this is for. -/
def Sends (r : Request op) (key : Bytes) (operation : Operation op) (keys : List Bytes) : Prop :=
  operation = r.operation ∧ keys = [key]

theorem heeds_attempts {r : Request op} {key : Bytes} {deadline : Instant}
    (hrouting : r.operation.routing = .key key) {left : Nat} {t : Topology}
    {failed : List NodeAddress} {text : String} {past : Call.Trace σ}
    (ht : t = Call.latest r.topology r.cache.key past)
    (hfailed : ∀ node, node ∈ failed ↔ node ∈ Call.lost past) :
    Program.Heeds (Call.Fits r.topology r.cache deadline (r.Sends key)) past
      (r.attempts deadline left t failed text) := by
  induction left generalizing t failed text past with
  | zero => exact .done _
  | succ left ih =>
      rw [attempts]
      refine Call.heeds_attempt ?_ fun o later hlater => ?_
      · intro gone hgone
        rw [ht, hrouting]
        refine .own rfl ⟨rfl, rfl⟩ ?_
        intro other hother
        rw [List.mem_singleton.1 hother]
        exact hgone.best_forKey hfailed (List.forall_mem_nil _)
      · cases o with
        | completed reply => exact .done _
        | failed e => exact .done _
        | retryTopology =>
            refine Call.heeds_record fun recorded _ hrecorded => ?_
            refine Call.heeds_read fun u read hread hlost => ih hread.symm fun node => ?_
            rw [hlost, hrecorded, hlater, hfailed]
            exact (iff_of_eq (congrArg _ (List.append_nil _))).symm
        | retryConnectivity e =>
            have hfailing : ∀ node,
                node ∈ (r.operation.routing.target t failed).failing failed ↔
                  node ∈ Call.lost later := by
              intro node
              rw [hlater, List.mem_append, Target.mem_failing, hfailed,
                Outcome.mem_lost_retryConnectivity]
              rfl
            refine Call.heeds_record fun recorded _ hrecorded => ?_
            refine Call.heeds_reread fun u read hread hlost => ih hread.symm fun node => ?_
            rw [hlost, hrecorded, hfailing]

theorem heeds_executeUntil {r : Request op} {key : Bytes} {deadline : Instant}
    (hrouting : r.operation.routing = .key key) :
    Program.Heeds (Call.Fits r.topology r.cache deadline (r.Sends key))
      ([] : Call.Trace σ) (r.executeUntil deadline) :=
  heeds_attempts hrouting rfl fun _ => Iff.rfl

end Request

/-!
# Bulk requests
-/

namespace BulkRequest

variable {op : OpCode} {ι σ : Type}

/-- What the attempts at a group of items send, and the keys that this is for. -/
def Sends (r : BulkRequest op ι) (operation : Operation op) (keys : List Bytes) : Prop :=
  ∃ items, operation = r.batching.operation items ∧ keys = items.map r.batching.key

/-- The node that is lost with a group. -/
def Part.lost (x : Part op ι) : List NodeAddress :=
  x.outcome.lost x.target

namespace Progress

variable {b : Batching op ι} {p : Progress op ι} {node : NodeAddress}

theorem mem_failed_take (x : Part op ι) :
    node ∈ (p.take b x.target x.items x.outcome).failed ↔ node ∈ p.failed ∨ node ∈ x.lost := by
  rcases x with ⟨target, items, o⟩
  cases o with
  | completed reply =>
      unfold take
      dsimp only
      split <;> exact (or_iff_left List.not_mem_nil).symm
  | failed e => exact (or_iff_left List.not_mem_nil).symm
  | retryTopology => exact (or_iff_left List.not_mem_nil).symm
  | retryConnectivity e =>
      exact Target.mem_failing.trans (or_congr_right Outcome.mem_lost_retryConnectivity.symm)

theorem mem_failed_foldl_take (parts : List (Part op ι)) :
    node ∈ (parts.foldl (fun p x => p.take b x.target x.items x.outcome) p).failed ↔
      node ∈ p.failed ∨ node ∈ parts.flatMap Part.lost := by
  induction parts generalizing p with
  | nil => exact (or_iff_left List.not_mem_nil).symm
  | cons x rest ih =>
      rw [List.foldl_cons, ih, mem_failed_take, List.flatMap_cons, List.mem_append, or_assoc]

end Progress

theorem lost_arrivals {groups : Table Target (List ι)} {f : Target × List ι → Attempt op}
    (hf : ∀ group, (f group).target = group.1) (outcomes : List (Nat × Outcome op.Reply))
    (arrival : Outcome op.Reply → List Measurement) :
    (arrivals groups outcomes).flatMap Part.lost =
      Call.Event.lost (⟨.round (groups.map f) arrival, outcomes⟩ : Call.Event σ) := by
  unfold arrivals Call.Event.lost
  dsimp only
  rw [List.filterMap_eq_flatMap_toList, List.flatMap_assoc]
  refine List.flatMap_congr fun arrived _ => ?_
  rw [List.getElem?_map]
  cases groups[arrived.1]? with
  | none => rfl
  | some group => exact congrArg (fun target => (arrived.2.lost target) ++ []) (hf group).symm

variable {r : BulkRequest op ι} {deadline : Instant} {t : Topology}
  {sends : Operation op → List Bytes → Prop}

/-- A group is for the best target of all its keys, which is for no other group. -/
theorem routed_partition {failed gone : List NodeAddress} {items : List ι} {past : Call.Trace σ}
    {before after : List (Attempt op)} {a : Attempt op}
    (hsends : ∀ items, items ≠ [] →
      sends (r.batching.operation items) (items.map r.batching.key))
    (hfailed : ∀ node, node ∈ failed ↔ node ∈ Call.lost past)
    (hgroups : ((partition r.batching t failed items).map fun (target, items) =>
      r.attempt t deadline target items) = before ++ a :: after)
    (hgone : Call.Gone past (before ++ after) gone) :
    Call.Routed r.cache deadline sends t gone a := by
  rcases List.map_eq_append_iff.1 hgroups with ⟨first, rest, hsplit, rfl, hrest⟩
  rcases List.map_eq_cons_iff.1 hrest with ⟨⟨target, group⟩, last, rfl, rfl, rfl⟩
  rcases mem_partition.1 (hsplit ▸ List.mem_append_right first List.mem_cons_self) with
    ⟨hitems, hgroup⟩
  have hother : ∀ b ∈ first ++ last, b.1 ≠ target := by
    have hnodup : (partition r.batching t failed items).keys.Nodup := nodup_partition items
    rw [hsplit, Table.keys, List.map_append, List.map_cons, List.nodup_middle,
      ← List.map_append, List.nodup_cons] at hnodup
    rintro b hb rfl
    exact hnodup.1 (List.mem_map.2 ⟨b, hb, rfl⟩)
  refine .own rfl (hsends group hitems) ?_
  intro key hkey
  rcases List.mem_map.1 hkey with ⟨item, hitem, rfl⟩
  rw [hgroup] at hitem
  have htarget := of_decide_eq_true (List.mem_filter.1 hitem).2
  subst htarget
  refine hgone.best_forKey hfailed ?_
  intro b hb
  rw [← List.map_append] at hb
  rcases List.mem_map.1 hb with ⟨other, hmember, rfl⟩
  exact hother other hmember

theorem heeds_rounds {left : Nat} {groups : Table Target (List ι)} {p : Progress op ι}
    {past : Call.Trace σ}
    (hsends : ∀ items, items ≠ [] →
      sends (r.batching.operation items) (items.map r.batching.key))
    (ht : t = Call.latest r.topology r.cache.key past)
    (hgroups : ∃ items, groups = partition r.batching t p.failed items)
    (hfailed : ∀ node, node ∈ p.failed ↔ node ∈ Call.lost past) :
    Program.Heeds (Call.Fits r.topology r.cache deadline sends) past
      (r.rounds deadline left t groups p) := by
  induction left generalizing t groups p past with
  | zero => exact .done _
  | succ left ih =>
      rw [rounds_succ]
      refine Call.heeds_record fun recorded hlatest hrecorded => ?_
      refine Call.heeds_round ?_ fun outcomes later hlater => ?_
      · intro before a after gone hsplit hgone
        rcases hgroups with ⟨items, rfl⟩
        rw [hlatest, ← ht]
        rw [← hrecorded] at hfailed
        exact routed_partition hsends hfailed hsplit hgone
      · have hnext : ∀ node, node ∈ (p.fresh.takeAll r.batching groups outcomes).failed ↔
            node ∈ Call.lost later := by
          intro node
          rw [hlater, hrecorded, List.mem_append, ← hfailed, Progress.takeAll_eq_foldl,
            Progress.mem_failed_foldl_take]
          refine or_congr_right (iff_of_eq (congrArg (node ∈ ·) ?_))
          exact lost_arrivals (fun _ => rfl) outcomes (arrival op)
        generalize p.fresh.takeAll r.batching groups outcomes = q at hnext
        unfold resume
        split
        · exact .done _
        · split
          · exact .done _
          · split
            · exact .done _
            · refine Call.heeds_reread fun u read hread hlost => ?_
              refine ih hread.symm ⟨q.retry, rfl⟩ fun node => ?_
              rw [hlost, hnext]

/-- What the attempts send may be told by any relation that holds of a group with items. -/
theorem heeds_executeUntil_of_sends
    (hsends : ∀ items, items ≠ [] →
      sends (r.batching.operation items) (items.map r.batching.key)) :
    Program.Heeds (Call.Fits r.topology r.cache deadline sends) ([] : Call.Trace σ)
      (r.executeUntil deadline) := by
  unfold executeUntil
  split
  · exact .done _
  · exact heeds_rounds hsends rfl ⟨r.items, rfl⟩ fun _ => Iff.rfl

theorem heeds_executeUntil :
    Program.Heeds (Call.Fits r.topology r.cache deadline r.Sends) ([] : Call.Trace σ)
      (r.executeUntil deadline) :=
  heeds_executeUntil_of_sends fun items _ => ⟨items, rfl, rfl⟩

end BulkRequest

/-!
# All calls
-/

/-- Whatever happens to the topology during a call, the epoch that a frame is sent under and the
node that it goes to come of one and the same topology. -/
theorem sent_under_one_topology {σ : Type} {known : Registry} {trace : Call.Trace σ}
    (hhears : Call.Hears known trace) :
    (∀ {op : OpCode} (r : Request op) (key : Bytes) (deadline : Instant)
      (stand : Call.Stand σ (Except ClientError op.Reply)), r.operation.routing = .key key →
        Call.Reaches (r.executeUntil deadline) trace stand →
          Call.OneTopology r.topology r.cache known (r.Sends key) trace stand) ∧
    (∀ {op : OpCode} {ι : Type} (r : BulkRequest op ι) (deadline : Instant)
      (stand : Call.Stand σ (Except ClientError op.Reply)),
        Call.Reaches (r.executeUntil deadline) trace stand →
          Call.OneTopology r.topology r.cache known r.Sends trace stand) := by
  constructor
  · intro op r key deadline stand hrouting h
    exact Call.oneTopology_of_heeds hhears (Request.heeds_executeUntil hrouting) h
  · intro op ι r deadline stand h
    exact Call.oneTopology_of_heeds hhears BulkRequest.heeds_executeUntil h

def splitRegistry (epoch : Int32) : Registry where
  intelligence := .hashDistributionAware
  default := { BulkRequest.splitTopology with epoch := epoch }
  caches := []

/-- A request for a key that belongs to the second node first. -/
def ownedGet : Request .get where
  cache := { name := "", config := { maxRetries := 5 }, intelligence := .hashDistributionAware }
  operation := .get [2]
  flags := .forceReturnValue
  topology := (splitRegistry 1).default

/-- The owner is lost; the topology is replaced meanwhile, and the other node answers under the
new epoch. -/
def ownedTrace : Call.Trace Unit :=
  let t := (splitRegistry 1).default
  let u := (splitRegistry 2).default
  [⟨.attempt (ownedGet.attempt t (.address ⟨"b", 1⟩) 9), .retryConnectivity (.transport "gone")⟩,
    ⟨.record (.retry "get" "connectivity"), ()⟩, ⟨.topology [], t⟩,
    ⟨.attempt (ownedGet.cache.refreshPing t 9), .completed ⟨none, []⟩⟩, ⟨.topology [], u⟩,
    ⟨.attempt (ownedGet.attempt u (.address ⟨"a", 1⟩) 9), .completed (some [7])⟩]

theorem reaches_ownedTrace :
    Call.Reaches (ownedGet.executeUntil 9) ownedTrace (.done (.ok (some [7]))) :=
  .answered _ (.answered _ (.answered _ (.answered _ (.answered _ (.answered _ (.done _))))))

theorem hears_ownedTrace : Call.Hears (splitRegistry 1) ownedTrace := by
  have h : (splitRegistry 1).Evolves (splitRegistry 2) := .offer .refl [] (splitRegistry 2).default
  exact .other (by simp) (.other (by simp) (.topology .refl [] (.other (by simp)
    (.topology h [] (.other (by simp) (.nil _))))))

theorem hears_splitTrace : Call.Hears (splitRegistry 1) BulkRequest.splitTrace :=
  .other (by simp) (.other (by simp) (.topology .refl [] (.other (by simp)
    (.topology .refl [] (.other (by simp) (.other (by simp) (.nil _)))))))

theorem sent_under_one_topology_split :
    (Call.Hears (splitRegistry 1) ownedTrace ∧ ownedGet.operation.routing = .key [2] ∧
      Call.Reaches (ownedGet.executeUntil 9) ownedTrace (.done (.ok (some [7]))) ∧
        Call.OneTopology ownedGet.topology ownedGet.cache (splitRegistry 1) (ownedGet.Sends [2])
          ownedTrace
          (.done (.ok (some [7])) : Call.Stand Unit (Except ClientError OpCode.get.Reply))) ∧
      Call.Hears (splitRegistry 1) BulkRequest.splitTrace ∧
        Call.Reaches (BulkRequest.splitGet.executeUntil 9) BulkRequest.splitTrace
          (.done (.ok [([1], [7]), ([2], [8])])) ∧
          Call.OneTopology BulkRequest.splitGet.topology BulkRequest.splitGet.cache
            (splitRegistry 1) BulkRequest.splitGet.Sends BulkRequest.splitTrace
            (.done (.ok [([1], [7]), ([2], [8])]) :
              Call.Stand Unit (Except ClientError OpCode.getAll.Reply)) := by
  constructor
  · exact ⟨hears_ownedTrace, rfl, reaches_ownedTrace,
      (sent_under_one_topology hears_ownedTrace).1 _ _ _ _ rfl reaches_ownedTrace⟩
  · exact ⟨hears_splitTrace, BulkRequest.reaches_splitTrace,
      (sent_under_one_topology hears_splitTrace).2 _ _ _ BulkRequest.reaches_splitTrace⟩

end GridClient
