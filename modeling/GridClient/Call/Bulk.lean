import GridClient.Call.Request

/-!
# Bulk requests

A bulk request carries many items. Its items are grouped by the node that owns
their keys, and in each round the groups are sent side by side. Groups that have
to be tried again are regrouped for the next round; one group that fails makes
the whole call fail, but only after the round is over.
-/

namespace GridClient

/-- What there is to know about items that are sent in groups: their keys, the
operation for a group, and how the answers to groups combine. -/
structure Batching (op : OpCode) (ι : Type) where
  key : ι → Bytes
  operation : List ι → Operation op
  empty : op.Reply
  merge : op.Reply → op.Reply → op.Reply

def Batching.getAll : Batching .getAll Bytes where
  key k := k
  operation := .getAll
  empty := ([] : Table Bytes Bytes)
  merge := fun into part => Table.merge into part

def Batching.putAll (expiration : Expiration) : Batching .putAll (Bytes × Bytes) where
  key entry := entry.1
  operation entries := .putAll entries expiration
  empty := ()
  merge := fun _ _ => ()

structure BulkRequest (op : OpCode) (ι : Type) where
  cache : RemoteCache
  batching : Batching op ι
  items : List ι
  flags : Flags
  topology : Topology

namespace BulkRequest

variable {op : OpCode} {ι σ : Type}

/-- Groups items by target. Groups stand in the order of their first items, and
items keep their order within a group. -/
def partition (b : Batching op ι) (t : Topology) (failed : List NodeAddress) (items : List ι) :
    Table Target (List ι) :=
  items.foldl
    (fun groups item =>
      Table.alter groups (Target.forKey (b.key item) t failed) fun group =>
        group.getD [] ++ [item]) []

def batches (r : BulkRequest op ι) : Table Target (List ι) :=
  partition r.batching r.topology [] r.items

def limit (r : BulkRequest op ι) : Nat :=
  r.cache.retryLimit r.topology

/-- What has come of a call so far. The failure, the items to try again and the
wish for a new topology concern the present round only. -/
structure Progress (op : OpCode) (ι : Type) where
  merged : op.Reply
  failed : List NodeAddress
  last : String
  failure : Option ClientError
  retry : List ι
  refresh : Bool

def Progress.take (b : Batching op ι) (p : Progress op ι) (target : Target) (items : List ι) :
    Outcome op.Reply → Progress op ι
  | .completed part =>
      if p.failure.isNone then { p with merged := b.merge p.merged part } else p
  | .failed e => { p with failure := some (p.failure.getD e) }
  | .retryTopology =>
      { p with last := target.changedUnder, retry := p.retry ++ items }
  | .retryConnectivity e =>
      { p with
        failed := target.failing p.failed
        last := e.message
        refresh := true
        retry := p.retry ++ items }

/-- Takes account of the outcomes of a round in the order of their arrival. -/
def Progress.takeAll (b : Batching op ι) (groups : Table Target (List ι)) (p : Progress op ι)
    (outcomes : List (Nat × Outcome op.Reply)) : Progress op ι :=
  outcomes.foldl
    (fun p (place, outcome) =>
      match groups[place]? with
      | some (target, items) => p.take b target items outcome
      | none => p) p

/-- What the arrival of an outcome adds to the metrics. -/
def arrival (op : OpCode) : Outcome op.Reply → List Measurement
  | .retryTopology => [.retry op.name "topology"]
  | .retryConnectivity _ => [.retry op.name "connectivity"]
  | _ => []

def attempt (r : BulkRequest op ι) (t : Topology) (deadline : Instant) (target : Target)
    (items : List ι) : Attempt op :=
  Request.attempt
    { cache := r.cache, operation := r.batching.operation items, flags := r.flags, topology := t }
    t target deadline

/-- Makes up to `left` rounds, the next one with the given groups. -/
def rounds (r : BulkRequest op ι) (deadline : Instant) :
    Nat → Topology → Table Target (List ι) → Progress op ι → Call σ (Except ClientError op.Reply)
  | 0, _, _, p => return .error (.topologyUnstable r.limit p.last)
  | left + 1, t, groups, p => do
      Call.record (.fanout op.name groups.length)
      let outcomes ←
        Call.round (groups.map fun (target, items) => r.attempt t deadline target items)
          (arrival op)
      let p :=
        Progress.takeAll r.batching groups
          { p with failure := none, retry := [], refresh := false } outcomes
      match p.failure with
      | some e => return .error e
      | none =>
          if p.retry.isEmpty then return .ok p.merged
          else if left = 0 then return .error (.topologyUnstable r.limit p.last)
          else
            if p.refresh then r.cache.refresh deadline
            let t ← Call.topology r.cache.key
            rounds r deadline left t (partition r.batching t p.failed p.retry) p

/-- Makes rounds up to an instant. Without items there is nothing to send. -/
def executeUntil (r : BulkRequest op ι) (deadline : Instant) :
    Call σ (Except ClientError op.Reply) :=
  if r.batches.isEmpty then return .ok r.batching.empty
  else
    r.rounds deadline r.limit r.topology r.batches
      { merged := r.batching.empty, failed := [], last := "no round completed", failure := none
        retry := [], refresh := false }

def execute (r : BulkRequest op ι) : Call σ (Except ClientError op.Reply) := do
  let now ← Call.now
  r.executeUntil (now + r.cache.config.requestTimeout)

end BulkRequest
end GridClient
