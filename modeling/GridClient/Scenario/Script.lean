import GridClient.Call.Binding
import GridClient.Scenario.Stage

/-!
# Scripts

A script sends calls through one client to a scripted cluster, step by step.
Contexts, prepared calls, scans and listener registrations keep their names from
step to step. Each step logs its events; where calls run side by side in no fixed
order, events are shown without numbers and sorted by node.
-/

namespace GridClient

/-- What a caller wants, before it is bound. -/
inductive Wish where
  | single {op : OpCode} (operation : Operation op)
  | getAll (keys : List Bytes)
  | putAll (entries : List (Bytes × Bytes)) (expiration : Expiration)
  | rejected (e : ClientError)

/-- A reply with the opcode that tells its type. -/
structure Answered where
  op : OpCode
  reply : op.Reply

inductive Prepared where
  | single {op : OpCode} (r : Request op)
  | getAll (r : BulkRequest .getAll Bytes)
  | putAll (r : BulkRequest .putAll (Bytes × Bytes))

namespace Prepared

def call (patience : Option Nat) : Prepared → Call Unit (Except ClientError Answered)
  | @single op r => do
      let reply ← timed patience r.cache r.executeUntil
      return reply.map (Answered.mk op)
  | getAll r => do
      let reply ← timed patience r.cache r.executeUntil
      return reply.map (Answered.mk .getAll)
  | putAll r => do
      let reply ← timed patience r.cache r.executeUntil
      return reply.map (Answered.mk .putAll)
where
  timed {α : Type} (patience : Option Nat) (cache : RemoteCache) (run : Instant → Call Unit α) :
      Call Unit α := do
    let now ← Call.now
    run (now + patience.getD cache.config.requestTimeout)

def isBulk : Prepared → Bool
  | single _ => false
  | _ => true

end Prepared

structure Scenario where
  stage : Stage
  cache : RemoteCache
  contexts : Table String CallContext := []
  prepared : Table String Prepared := []
  scans : Table String Scan := []
  registrations : Table String Registration := []
  numberless : List Nat := []

namespace Scenario

/-- Bounds on the turns of one call for a page, and on the steps of a stage. -/
def turnLimit : Nat :=
  100000

def stepLimit : Nat :=
  10000000

def withCluster (s : Scenario) (c : Cluster) : Scenario :=
  { s with stage := { s.stage with cluster := c } }

def withClient (s : Scenario) (c : Client) : Scenario :=
  s.withCluster { s.stage.cluster with client := c }

def client (s : Scenario) : Client :=
  s.stage.cluster.client

def topologyOf (s : Scenario) (cache : RemoteCache) : Topology :=
  s.client.registry.current cache.key

def touch (s : Scenario) (cache : RemoteCache) : Scenario :=
  s.withClient { s.client with registry := s.client.registry.touch cache.key }

/-- A client of a cluster, with the topology it has been told of the cache. -/
def ofNodes (cache : RemoteCache) (seeds : List NodeAddress) (u : Option TopologyUpdate)
    (nodes : List Node) : Scenario :=
  let client : Client := { registry := .ofServers cache.intelligence seeds }
  let client :=
    match u with
    | some u => (client.install cache.key u).2
    | none => client
  { stage := { cluster := { client, nodes } }, cache : Scenario }.touch cache

/-!
# Steps
-/

def fresh (s : Scenario) : Scenario :=
  s.withCluster { s.stage.cluster with log := [] }

/-- Ends a step: background work that needs no time is done. -/
def settle (s : Scenario) : Scenario :=
  { s with stage := s.stage.settle stepLimit }

/-- Another cache of the same client. -/
def cacheNamed (s : Scenario) (name : Option String) : RemoteCache :=
  match name with
  | some name => { s.cache with name }
  | none => s.cache

/-- The context of a step: a named one is kept, and flags are set first. -/
def context (s : Scenario) (name : Option String) (flags : Option Flags) : CallContext :=
  let c := (name.bind fun n => Table.get? s.contexts n).getD {}
  match flags with
  | some flags => c.set flags
  | none => c

def keepContext (s : Scenario) (name : Option String) (c : CallContext) : Scenario :=
  match name with
  | some name => { s with contexts := Table.insert s.contexts name c }
  | none => s

/-- Binds a wish under the topology that is current. A rejected wish uses up nothing. -/
def prepare (s : Scenario) (cache : RemoteCache) (context : Option String) (c : CallContext)
    (wish : Wish) : Except ClientError Prepared × CallContext × Scenario :=
  let t := s.topologyOf cache
  match wish with
  | .single operation =>
      let (r, c) := cache.request t c operation
      (.ok (.single r), c, s.keepContext context c)
  | .getAll keys =>
      let (r, c) := cache.getAll t c keys
      (.ok (.getAll r), c, s.keepContext context c)
  | .putAll entries e =>
      let (r, c) := cache.putAll t c entries e
      (.ok (.putAll r), c, s.keepContext context c)
  | .rejected e => (.error e, c, s.keepContext context c)

/-- Runs calls side by side to their ends, or until they are dropped. -/
def runAll {σ α : Type} (s : Scenario) (cancel : Option Nat) (calls : List (σ × Call σ α)) :
    List (σ × Option α) × Scenario :=
  let cancelAt := cancel.map fun millis => s.stage.cluster.clock + millis
  let f := (s.stage.start calls).run cancelAt stepLimit
  (f.tasks.map fun r => (r.note, r.result?), { s with stage := f.stage })

/-- Runs prepared calls. If parts of them run side by side, the channels that have been
opened by the time they end are numberless from then on. -/
def runPrepared (s : Scenario) (patience cancel : Option Nat) (calls : List Prepared) :
    List (Option (Except ClientError Answered)) × Scenario :=
  let before := s.stage.cluster.opened
  let (results, s) := s.runAll cancel (calls.map fun p => ((), p.call patience))
  let opened :=
    if calls.any Prepared.isBulk then
      List.range' (before + 1) (s.stage.cluster.opened - before)
    else []
  (results.map Prod.snd, { s with numberless := s.numberless ++ opened })

def sleep (s : Scenario) (millis : Nat) : Scenario :=
  let f : Stage.Foreground Unit Unit := { stage := s.stage, tasks := [] }
  { s with stage := (f.pass (s.stage.cluster.after millis) stepLimit).stage }

def setNodes (s : Scenario) (change : List (NodeAddress × (Node → Node))) : Scenario :=
  s.withCluster
    { s.stage.cluster with
      nodes :=
        change.foldl
          (fun nodes (address, f) =>
            if nodes.any fun n => n.address == address then
              nodes.map fun n => if n.address = address then f n else n
            else nodes ++ [f { address }]) s.stage.cluster.nodes }

/-!
# Topologies
-/

def install (s : Scenario) (cache : RemoteCache) (u : TopologyUpdate) :
    Except ClientError Bool × Scenario :=
  let (r, client) := s.client.install cache.key u
  (r, s.withClient client)

def push (s : Scenario) (cache : RemoteCache) (payload : Bytes) :
    Except ClientError Bool × Scenario :=
  let (r, client) := s.client.push cache.key payload
  (r, s.withClient client)

/-!
# Scans
-/

def keepScan (s : Scenario) (name : String) (scan : Scan) : Scenario :=
  { s with scans := Table.insert s.scans name scan }

/-- Forgets a scan; an iteration that it still holds is ended in the background. -/
def dropScan (s : Scenario) (name : String) (scan : Scan) : Scenario :=
  let c := s.stage.cluster
  let errands := ((scan.farewell (s.topologyOf scan.cache)).map Errand.farewell).toList
  { s with scans := s.scans.filter fun entry => entry.1 != name }.withCluster
    { c with errands := c.errands ++ errands }

/-- Gives a new scan its name. A scan that had the name before is dropped. -/
def openScan (s : Scenario) (name : String) (scan : Scan) : Scenario :=
  match Table.get? s.scans name with
  | some old => (s.dropScan name old).keepScan name scan
  | none => s.keepScan name scan

/-- Asks a scan for its next page. A call that is dropped leaves the scan as it was
when it last began to wait. -/
def scanNext (s : Scenario) (name : String) (scan : Scan) (cancel : Option Nat) :
    Option Scan.PageResult × Scan × Scenario :=
  match s.runAll cancel [(scan, scan.nextPage turnLimit)] with
  | ([(_, some (r, scan))], s) => (r, scan, s.keepScan name scan)
  | ([(scan, none)], s) => (none, scan, s.keepScan name scan)
  | (_, s) => (none, scan, s)

/-- Reads a scan to its end and forgets it. -/
def scanDrain (s : Scenario) (name : String) (scan : Scan) :
    List ScanEntry × Option ClientError × Scenario :=
  match s.runAll none [(scan, Scan.drain turnLimit turnLimit [] scan)] with
  | ([(_, some (entries, e, scan))], s) => (entries, e, s.dropScan name scan)
  | (_, s) => ([], none, s)

def scanClose (s : Scenario) (name : String) (scan : Scan) : Scenario :=
  match s.runAll none [(scan, scan.close)] with
  | ([(_, some scan)], s) => s.dropScan name scan
  | (_, s) => s

/-!
# Reports
-/

/-- An event as a report shows it: with or without the numbers of its channel and
its request. -/
structure Shown where
  time : Instant
  event : Event
  numbered : Bool

end Scenario

namespace Event

def channel? : Event → Option Channel
  | acquired _ channel => some channel
  | refused _ _ => none
  | written channel _ _ => some channel
  | returned channel _ => some channel

/-- The node of an event, or the target if there is none. -/
def site (e : Event) : String :=
  match e with
  | refused target _ => target.text
  | acquired _ channel => channel.node.text
  | written channel _ _ => channel.node.text
  | returned channel _ => channel.node.text

end Event

namespace Scenario

def siteBefore (a b : Shown) : Bool :=
  a.event.site ≤ b.event.site

/-- The events of a step, those of numberless channels without their numbers. After a
step with calls side by side they are sorted by node. -/
def events (s : Scenario) (sideBySide : Bool) : List Shown :=
  let shown :=
    s.stage.cluster.log.reverse.map fun l =>
      { time := l.time
        event := l.event
        numbered := !(l.event.channel?.any fun ch => s.numberless.contains ch.id) }
  if sideBySide then shown.mergeSort siteBefore else shown

end Scenario
end GridClient
