import GridClient.Proofs.Call.Carrying
import GridClient.Proofs.Call.Request
import GridClient.Proofs.Call.Round
import GridClient.Proofs.Program.Heeding

/-!
# What a request sends

Once its deadline is set, a request reads topologies, records its retries and makes attempts, and
it asks for nothing else. Its attempts are at its own operation, or at those for the groups of its
items, and have its own flags; in between, pings refresh the topology.
-/

namespace GridClient

namespace Call

variable {σ α : Type} {op : OpCode} {cache : RemoteCache} {deadline : Instant}
  {flags : Flags} {sends : Operation op → Prop}

/-- An attempt at one of some operations with the given flags, or a ping that refreshes the
topology. -/
inductive Dispatched (cache : RemoteCache) (deadline : Instant) (flags : Flags)
    (sends : Operation op → Prop) : {other : OpCode} → Attempt other → Prop where
  | own {r : Request op} (hflags : r.flags = flags) (hsends : sends r.operation) (t : Topology)
      (target : Target) : Dispatched cache deadline flags sends (r.attempt t target deadline)
  | ping (t : Topology) : Dispatched cache deadline flags sends (cache.refreshPing t deadline)

/-- What is asked while such attempts are made. -/
inductive Ask.Dispatches (cache : RemoteCache) (deadline : Instant) (flags : Flags)
    (sends : Operation op → Prop) : Ask σ → Prop where
  | topology : Dispatches cache deadline flags sends (.topology cache.key)
  | record (m : Measurement) : Dispatches cache deadline flags sends (.record m)
  | attempt {other : OpCode} {a : Attempt other} (ha : Dispatched cache deadline flags sends a) :
      Dispatches cache deadline flags sends (.attempt a)
  | round {other : OpCode} {as : List (Attempt other)}
      (has : ∀ a ∈ as, Dispatched cache deadline flags sends a)
      (arrival : Outcome other.Reply → List Measurement) :
      Dispatches cache deadline flags sends (.round as arrival)

theorem Ask.Dispatches.dispatched {q : Ask σ} (h : q.Dispatches cache deadline flags sends)
    {other : OpCode} {a : Attempt other} (hmakes : q.Makes a) :
    Dispatched cache deadline flags sends a := by
  cases hmakes with
  | attempt =>
      cases h with
      | attempt ha => exact ha
  | round arrival hmem =>
      cases h with
      | round has arrival => exact has a hmem

theorem only_topology {next : Topology → Call σ α}
    (h : ∀ t, Program.Only (Ask.Dispatches cache deadline flags sends) (next t)) :
    Program.Only (Ask.Dispatches cache deadline flags sends) (Call.topology cache.key >>= next) :=
  .ask .topology h

theorem only_record {m : Measurement} {next : Unit → Call σ α}
    (h : Program.Only (Ask.Dispatches cache deadline flags sends) (next ())) :
    Program.Only (Ask.Dispatches cache deadline flags sends) (Call.record m >>= next) :=
  .ask (.record m) fun _ => h

theorem only_attempt {other : OpCode} {a : Attempt other} {next : Outcome other.Reply → Call σ α}
    (ha : Dispatched cache deadline flags sends a)
    (h : ∀ o, Program.Only (Ask.Dispatches cache deadline flags sends) (next o)) :
    Program.Only (Ask.Dispatches cache deadline flags sends) (Call.attempt a >>= next) :=
  .ask (.attempt ha) h

theorem only_round {other : OpCode} {as : List (Attempt other)}
    {arrival : Outcome other.Reply → List Measurement}
    {next : List (Nat × Outcome other.Reply) → Call σ α}
    (has : ∀ a ∈ as, Dispatched cache deadline flags sends a)
    (h : ∀ outcomes, Program.Only (Ask.Dispatches cache deadline flags sends) (next outcomes)) :
    Program.Only (Ask.Dispatches cache deadline flags sends) (Call.round as arrival >>= next) :=
  .ask (.round has arrival) h

theorem only_refresh :
    Program.Only (Ask.Dispatches cache deadline flags sends)
      (cache.refresh deadline : Call σ Unit) := by
  unfold RemoteCache.refresh Request.bind
  simp only [Program.bind_bind, Program.pure_bind]
  apply only_topology
  intro t
  apply only_attempt (.ping t)
  intro o
  exact .done ()

/-- The topology is read anew, possibly after a refresh. -/
theorem only_reread {c : Prop} [Decidable c] {next : Topology → Call σ α}
    (h : ∀ t, Program.Only (Ask.Dispatches cache deadline flags sends) (next t)) :
    Program.Only (Ask.Dispatches cache deadline flags sends)
      (if c then cache.refresh deadline >>= fun _ => Call.topology cache.key >>= next
      else Call.topology cache.key >>= next) := by
  split
  · exact only_refresh.bind fun _ => only_topology h
  · exact only_topology h

/-- Every frame is that of an attempt which is dispatched. -/
theorem frame_of_only {p : Call σ α} {trace : Trace σ} {stand : Stand σ α} {frame : Bytes}
    (honly : Program.Only (Ask.Dispatches cache deadline flags sends) p)
    (h : Reaches p trace stand) (hwrites : Writes trace stand frame) :
    ∃ (other : OpCode) (a : Attempt other) (id : UInt64) (version : Version),
      Dispatched cache deadline flags sends a ∧ frame = a.frame id version := by
  rcases hwrites with ⟨q, hasked, other, a, hmakes, run, inner, hrun, hframe⟩
  have hdispatched : Dispatched cache deadline flags sends a := by
    have hsort := honly.of_reaches h
    rcases mem_asked.1 hasked with ⟨e, he, rfl⟩ | hstand
    · exact (hsort.1 e he).dispatched hmakes
    · exact (hsort.2 q hstand).dispatched hmakes
  rcases Attempt.frames_run hrun with ⟨hnone, -⟩ | ⟨id, version, hone⟩
  · rw [hnone] at hframe
    cases hframe
  · rw [hone, List.mem_singleton] at hframe
    exact ⟨other, a, id, version, hdispatched, hframe⟩

end Call

/-!
# Requests
-/

namespace Request

variable {op : OpCode} {σ : Type}

theorem only_attempts (r : Request op) (deadline : Instant) (left : Nat) (t : Topology)
    (failed : List NodeAddress) (last : String) :
    Program.Only (Call.Ask.Dispatches r.cache deadline r.flags (· = r.operation))
      (r.attempts deadline left t failed last : Call σ _) := by
  induction left generalizing t failed last with
  | zero => exact .done _
  | succ left ih =>
      rw [attempts]
      apply Call.only_attempt
      · apply Call.Dispatched.own
        · rfl
        · rfl
      intro o
      cases o with
      | completed reply => exact .done _
      | failed e => exact .done _
      | retryTopology =>
          apply Call.only_record
          apply Call.only_topology
          intro u
          exact ih u _ _
      | retryConnectivity e =>
          apply Call.only_record
          exact Call.only_reread fun u => ih u _ _

theorem only_executeUntil (r : Request op) (deadline : Instant) :
    Program.Only (Call.Ask.Dispatches r.cache deadline r.flags (· = r.operation))
      (r.executeUntil deadline : Call σ _) :=
  r.only_attempts deadline _ _ _ _

end Request

/-!
# Bulk requests
-/

namespace BulkRequest

variable {op : OpCode} {ι σ : Type}

/-- The operations for the groups of a bulk request. -/
def Groups (r : BulkRequest op ι) (o : Operation op) : Prop :=
  ∃ items, o = r.batching.operation items

theorem only_rounds (r : BulkRequest op ι) (deadline : Instant) (left : Nat) (t : Topology)
    (groups : Table Target (List ι)) (p : Progress op ι) :
    Program.Only (Call.Ask.Dispatches r.cache deadline r.flags r.Groups)
      (r.rounds deadline left t groups p : Call σ _) := by
  induction left generalizing t groups p with
  | zero => exact .done _
  | succ left ih =>
      rw [rounds_succ]
      apply Call.only_record
      apply Call.only_round
      · intro a ha
        rcases List.mem_map.1 ha with ⟨⟨target, items⟩, -, rfl⟩
        apply Call.Dispatched.own
        · rfl
        · exact ⟨items, rfl⟩
      · intro outcomes
        generalize p.fresh.takeAll r.batching groups outcomes = q
        unfold resume
        split
        · exact .done _
        · split
          · exact .done _
          · split
            · exact .done _
            · exact Call.only_reread fun u => ih u _ _

theorem only_executeUntil (r : BulkRequest op ι) (deadline : Instant) :
    Program.Only (Call.Ask.Dispatches r.cache deadline r.flags r.Groups)
      (r.executeUntil deadline : Call σ _) := by
  unfold executeUntil
  split
  · exact .done _
  · exact r.only_rounds deadline _ _ _ _

end BulkRequest
end GridClient
