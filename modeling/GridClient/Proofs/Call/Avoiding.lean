import GridClient.Proofs.Call.Snapshot

/-!
# Lost nodes are avoided

A node that could not be reached is not tried again during a call, not even if a topology that the
call has got since then lists it as an owner. What the groups of one round have lost counts for all
groups of the rounds after it.
-/

namespace GridClient

theorem Target.Best.not_mem {t : Topology} {gone : List NodeAddress} {key : Bytes}
    {node : NodeAddress} (h : (Target.address node).Best t gone key) : node ∉ gone := by
  rcases h with ⟨-, -, -, -, hleft⟩
  exact hleft

namespace Call

variable {σ α : Type} {op : OpCode} {bound : Topology} {cache : RemoteCache} {deadline : Instant}
  {sends : Operation op → List Bytes → Prop}

/-- What has been lost before is gone, and nothing else need be. -/
theorem gone_lost (past : Trace σ) (others : List (Attempt op)) : Gone past others (lost past) :=
  ⟨fun _ hnode => hnode, fun _ hnode => Or.inl hnode⟩

/-- An attempt that is for some key goes to no node that is gone. -/
theorem Routed.avoids {t : Topology} {gone : List NodeAddress} {other : OpCode}
    {a : Attempt other} (h : Routed cache deadline sends t gone a)
    (hkeys : ∀ operation keys, sends operation keys → keys ≠ []) :
    ∀ node ∈ gone, a.target ≠ .address node := by
  intro node hnode htarget
  cases h with
  | @own r target keys hcache hsends hbest =>
      rcases List.exists_mem_of_ne_nil keys (hkeys _ _ hsends) with ⟨key, hkey⟩
      have hown : target = .address node := htarget
      subst hown
      exact (hbest key hkey).not_mem hnode
  | ping => cases htarget

/-- Whenever an attempt is asked for, it goes to no node that has been lost before. A ping goes to
any node. Every other attempt goes by the topology that was read last: its target is the first
owner of each of its keys that has not been lost, and any node only if all owners have been. -/
def AvoidsLost (bound : Topology) (cache : RemoteCache) (deadline : Instant)
    (sends : Operation op → List Bytes → Prop) (trace : Trace σ) (stand : Stand σ α) : Prop :=
  ∀ (before : Trace σ) (q : Ask σ), Program.AskedAfter trace stand before q →
    ∀ {other : OpCode} (others : List (Attempt other)) (a : Attempt other),
      q.MakesBeside others a →
        (∀ node ∈ lost before, a.target ≠ .address node) ∧
          Routed cache deadline sends (latest bound cache.key before) (lost before) a

theorem avoidsLost_of_heeds {p : Call σ α} {trace : Trace σ} {stand : Stand σ α}
    (hheeds : Program.Heeds (Fits bound cache deadline sends) [] p)
    (hkeys : ∀ operation keys, sends operation keys → keys ≠ []) (h : Reaches p trace stand) :
    AvoidsLost bound cache deadline sends trace stand := by
  intro before q hasked other others a hmakes
  have hrouted := hheeds.fits_of_askedAfter h hasked a others _ hmakes (gone_lost before others)
  exact ⟨hrouted.avoids hkeys, hrouted⟩

end Call

/-- What the attempts at a group send, and the keys that this is for, of which there are some. -/
def BulkRequest.SendsSome {op : OpCode} {ι : Type} (r : BulkRequest op ι)
    (operation : Operation op) (keys : List Bytes) : Prop :=
  r.Sends operation keys ∧ keys ≠ []

theorem BulkRequest.heeds_sendsSome {op : OpCode} {ι σ : Type} {r : BulkRequest op ι}
    {deadline : Instant} :
    Program.Heeds (Call.Fits r.topology r.cache deadline r.SendsSome) ([] : Call.Trace σ)
      (r.executeUntil deadline) :=
  heeds_executeUntil_of_sends fun items hitems => ⟨⟨items, rfl, rfl⟩, by simpa using hitems⟩

/-- Whatever topologies a call gets and whatever its attempts come to, a node that it has lost is
not tried again, and each attempt goes to the best node that is left. -/
theorem lost_avoided {σ : Type} {trace : Call.Trace σ} :
    (∀ {op : OpCode} (r : Request op) (key : Bytes) (deadline : Instant)
      (stand : Call.Stand σ (Except ClientError op.Reply)), r.operation.routing = .key key →
        Call.Reaches (r.executeUntil deadline) trace stand →
          Call.AvoidsLost r.topology r.cache deadline (r.Sends key) trace stand) ∧
    (∀ {op : OpCode} {ι : Type} (r : BulkRequest op ι) (deadline : Instant)
      (stand : Call.Stand σ (Except ClientError op.Reply)),
        Call.Reaches (r.executeUntil deadline) trace stand →
          Call.AvoidsLost r.topology r.cache deadline r.SendsSome trace stand) := by
  constructor
  · intro op r key deadline stand hrouting h
    refine Call.avoidsLost_of_heeds (Request.heeds_executeUntil hrouting) ?_ h
    rintro operation keys ⟨-, rfl⟩
    exact List.cons_ne_nil _ _
  · intro op ι r deadline stand h
    exact Call.avoidsLost_of_heeds BulkRequest.heeds_sendsSome (fun _ _ hsends => hsends.2) h

/-- The newer topology still lists the lost node as the first owner of the key, but the request goes
to the other node; so does the group of the second round. -/
theorem lost_avoided_split :
    (ownedGet.operation.routing = .key [2] ∧
      Call.Reaches (ownedGet.executeUntil 9) ownedTrace (.done (.ok (some [7]))) ∧
        Call.AvoidsLost ownedGet.topology ownedGet.cache 9 (ownedGet.Sends [2]) ownedTrace
          (.done (.ok (some [7])) : Call.Stand Unit (Except ClientError OpCode.get.Reply)) ∧
          Call.lost (ownedTrace.take 5) = [⟨"b", 1⟩] ∧
            Call.latest ownedGet.topology [] (ownedTrace.take 5) = (splitRegistry 2).default ∧
              (splitRegistry 2).default.ownersOf [2] = [⟨"b", 1⟩, ⟨"a", 1⟩]) ∧
      Call.Reaches (BulkRequest.splitGet.executeUntil 9) BulkRequest.splitTrace
          (.done (.ok [([1], [7]), ([2], [8])])) ∧
        Call.AvoidsLost BulkRequest.splitGet.topology BulkRequest.splitGet.cache 9
          BulkRequest.splitGet.SendsSome BulkRequest.splitTrace
          (.done (.ok [([1], [7]), ([2], [8])]) :
            Call.Stand Unit (Except ClientError OpCode.getAll.Reply)) := by
  constructor
  · exact ⟨rfl, reaches_ownedTrace, lost_avoided.1 _ _ _ _ rfl reaches_ownedTrace, rfl, rfl,
      by decide +kernel⟩
  · exact ⟨BulkRequest.reaches_splitTrace,
      lost_avoided.2 _ _ _ BulkRequest.reaches_splitTrace⟩

end GridClient
