import GridClient.Call.Basic
import GridClient.RemoteCache
import GridClient.Text.Quoted

/-!
# Requests

A request is an operation bound to the flags and the topology it is to be sent
with. A call makes attempts at it, each time to the best node that has not failed
it yet, until one of them settles the matter or the limit is reached. After a
failure to reach a node any node is asked for the current topology.
-/

namespace GridClient

/-- The first owner of a key that has not failed, or any node. -/
def Target.forKey (key : Bytes) (t : Topology) (failed : List NodeAddress) : Target :=
  match (t.ownersOf key).find? fun a => !failed.contains a with
  | some a => .address a
  | none => .any

def Routing.target (r : Routing) (t : Topology) (failed : List NodeAddress) : Target :=
  match r with
  | .key k => .forKey k t failed
  | .address a => .address a
  | .any => .any

/-- The nodes that count as failed once a target could not be reached. -/
def Target.failing (target : Target) (failed : List NodeAddress) : List NodeAddress :=
  match target with
  | .address a => if failed.contains a then failed else failed ++ [a]
  | .any => failed

structure Request (op : OpCode) where
  cache : RemoteCache
  operation : Operation op
  flags : Flags
  topology : Topology

namespace Request

variable {op : OpCode} {σ : Type}

def bind (cache : RemoteCache) (flags : Flags) (operation : Operation op) :
    Call σ (Request op) := do
  let topology ← Call.topology cache.key
  return { cache, operation, flags, topology }

def target (r : Request op) : Target :=
  r.operation.routing.target r.topology []

def describe (r : Request op) : String :=
  "RemoteOperation \x7b op: " ++ op.title ++ ", cache: " ++ Quoted.text r.cache.name
    ++ ", flags: " ++ r.flags.describe ++ ", topology_id: " ++ toString r.topology.epoch.toInt
    ++ " \x7d"

def limit (r : Request op) : Nat :=
  r.cache.retryLimit r.topology

def attempt (r : Request op) (t : Topology) (target : Target) (deadline : Instant) :
    Attempt op where
  cache := r.cache.key
  operation := r.operation
  flags := r.flags
  topology := t
  intelligence := r.cache.intelligence
  target := target
  deadline := deadline
  patience := r.cache.config.drainTimeout

end Request

/-- Asks any node for the current topology, by a ping. Whatever comes of it, the
answer may have brought a topology. -/
def RemoteCache.refresh {σ : Type} (cache : RemoteCache) (deadline : Instant) : Call σ Unit := do
  let ping ← Request.bind cache .none (.ping none)
  let _ ← Call.attempt (ping.attempt ping.topology .any deadline)
  return ()

/-- What is remembered of an attempt that met a new topology. -/
def Target.changedUnder (target : Target) : String :=
  s!"topology changed while talking to {target.text}"

namespace Request

variable {op : OpCode} {σ : Type}

/-- Makes up to `left` attempts. The arguments that change from one to the next are
the topology, the nodes that have failed, and what is known of the last attempt. -/
def attempts (r : Request op) (deadline : Instant) :
    Nat → Topology → List NodeAddress → String → Call σ (Except ClientError op.Reply)
  | 0, _, _, last => return .error (.topologyUnstable r.limit last)
  | left + 1, t, failed, _ => do
      let target := r.operation.routing.target t failed
      match ← Call.attempt (r.attempt t target deadline) with
      | .completed reply => return .ok reply
      | .failed e => return .error e
      | .retryTopology =>
          Call.record (.retry op.name "topology")
          let t ← Call.topology r.cache.key
          attempts r deadline left t failed target.changedUnder
      | .retryConnectivity e =>
          Call.record (.retry op.name "connectivity")
          if left ≠ 0 then r.cache.refresh deadline
          let t ← Call.topology r.cache.key
          attempts r deadline left t (target.failing failed) e.message

def executeUntil (r : Request op) (deadline : Instant) : Call σ (Except ClientError op.Reply) :=
  r.attempts deadline r.limit r.topology [] "no attempt completed"

def execute (r : Request op) : Call σ (Except ClientError op.Reply) := do
  let now ← Call.now
  r.executeUntil (now + r.cache.config.requestTimeout)

end Request
end GridClient
