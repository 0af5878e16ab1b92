import GridClient.Scan.Plan

/-!
# Paging

A scan delivers the entries of a cache in pages. It starts the planned iterations
one after another, pulls their pages, drops entries that it has delivered before,
and notes which segments are complete. When a page is lost because the topology
has changed or the node is gone, the iteration is given up and the rest is planned
anew; too many losses without a page in between end the call with an error.
-/

namespace GridClient
namespace Scan

/-- A call that leaves the state of the scan as its note. -/
abbrev Paging (α : Type) : Type :=
  Call Scan α

/-- What a call for a page ends with: entries, nothing more, or an error. -/
abbrev PageResult : Type :=
  Except ClientError (Option (List ScanEntry))

def deadline {σ : Type} (s : Scan) : Call σ Instant := do
  let now ← Call.now
  return now + s.cache.config.requestTimeout

def execute {op : OpCode} {σ : Type} (s : Scan) (operation : Operation op) :
    Call σ (Except ClientError op.Reply) := do
  let request ← Request.bind s.cache s.flags operation
  let deadline ← s.deadline
  request.executeUntil deadline

def startOf (s : Scan) (g : ScanGroup) : Operation .iterationStart :=
  .iterationStart g.segments s.options.filter (s.options.batch.getD s.cache.config.batchSize)
    s.options.metadata g.target

/-- Gives up the iteration that a server holds, if there is one. That the server
refuses to end it changes nothing. -/
def endActive (s : Scan) : Paging Scan :=
  match s.active with
  | none => return s
  | some a => do
      let s := { s with active := none }
      Call.note s
      let _ ← s.execute (.iterationEnd a.cursor)
      return s

/-!
# Pages
-/

/-- Tracks entries one by one: the new ones, in order, how many were not new, and
the tracker after them. -/
def track (count : Option UInt32) : Tracker → List ScanEntry → List ScanEntry × Nat × Tracker
  | t, [] => ([], 0, t)
  | t, e :: rest =>
      let (isNew, t) := t.track (count.map fun c => Hash.segmentOf e.key c) e.key
      let (fresh, duplicates, t) := track count t rest
      if isNew then (e :: fresh, duplicates, t) else (fresh, duplicates + 1, t)

/-- Completes those segments that belong to a group. -/
def completeWithin (group : Option SegmentSet) (t : Tracker) (segments : List UInt32) : Tracker :=
  (segments.filter fun n => group.all fun g => g.contains n).foldl Tracker.complete t

def accept (s : Scan) (page : Page) (group : Option SegmentSet) :
    Paging (List ScanEntry × Scan) := do
  let (fresh, duplicates, tracker) := track s.segmentCount s.tracker page.entries
  let s := { s with tracker := completeWithin group tracker page.finished }
  if duplicates ≠ 0 then Call.record (.scanDuplicates duplicates)
  return (fresh, s)

def completeGroup (s : Scan) (group : Option SegmentSet) : Scan :=
  match group with
  | some g => { s with tracker := g.toList.foldl Tracker.complete s.tracker }
  | none => s

/-- Goes on after a page has been lost, unless that has happened too often. -/
def recover (s : Scan) (cause : String) (refresh : Bool) :
    Paging (Except ClientError Unit × Scan) := do
  let s := { s with failures := s.failures + 1 }
  let t ← Call.topology s.cache.key
  Call.record (.retry OpCode.iterationNext.name cause)
  if s.cache.retryLimit t < s.failures then
    return (.error (.topologyUnstable s.failures s!"scan interrupted by {cause}"), s)
  else
    Call.note s
    let s ← s.endActive
    if refresh then
      let deadline ← s.deadline
      s.cache.refresh deadline
    let t ← Call.topology s.cache.key
    return (.ok (), s.replan t)

/-!
# Turns
-/

/-- What a turn leads to: the end of the call, or another turn. -/
inductive Turn where
  | result (r : PageResult) (s : Scan)
  | again (s : Scan)

/-- The turn that follows an attempt to go on after a loss. -/
def Turn.ofRecovery : Except ClientError Unit × Scan → Turn
  | (.ok (), s) => again s
  | (.error e, s) => result (.error e) s

def pull (s : Scan) (a : ActiveIteration) : Paging Turn := do
  Call.note s
  let next ← Request.bind s.cache s.flags (.iterationNext a.cursor)
  let deadline ← s.deadline
  match ← Call.attempt (next.attempt next.topology (.address a.cursor.address) deadline) with
  | .completed page =>
      if page.isLast then
        let (_, s) ← accept { s with active := none } page a.segments
        let s := s.completeGroup a.segments
        Call.note s
        let _ ← s.execute (.iterationEnd a.cursor)
        return .again s
      else
        let (fresh, s) ← accept { s with failures := 0 } page a.segments
        if fresh.isEmpty then return .again s else return .result (.ok (some fresh)) s
  | .retryTopology => do
      let after ← s.recover "topology" false
      return .ofRecovery after
  | .retryConnectivity _ => do
      let after ← recover { s with active := none } "connectivity" true
      return .ofRecovery after
  | .failed e => do
      let s ← s.endActive
      return .result (.error e) { s with state := .ended }

/-- Starts the iteration of a group and pulls its first page. If it cannot be
started, the group goes back to the front of the plan. -/
def begin (s : Scan) (g : ScanGroup) : Paging Turn := do
  Call.note s
  match ← s.execute (s.startOf g) with
  | .error e => return .result (.error e) { s with plan := g :: s.plan }
  | .ok cursor =>
      let a : ActiveIteration := { cursor, segments := g.segments }
      pull { s with active := some a } a

def proceed (s : Scan) : Paging Turn :=
  match s.active, s.plan with
  | some a, _ => s.pull a
  | none, g :: rest => begin { s with plan := rest } g
  | none, [] => return .result (.ok none) { s with state := .ended }

def turn (s : Scan) : Paging Turn :=
  match s.state with
  | .ended => return .result (.ok none) s
  | .notStarted => do
      let t ← Call.topology s.cache.key
      proceed { s.replan t with state := .running }
  | .running => s.proceed

/-- Takes turns until one of them ends the call, but at most the given number. -/
def nextPage : Nat → Scan → Paging (Option PageResult × Scan)
  | 0, s => return (none, s)
  | turns + 1, s => do
      match ← s.turn with
      | .result r s => return (some r, s)
      | .again s => nextPage turns s

def close (s : Scan) : Paging Scan := do
  let s ← s.endActive
  return { s with state := .ended }

/-- The entries of all pages up to the end or the first error. The first argument
bounds the number of pages and the second the turns taken for each. -/
def drain (turns : Nat) : Nat → List ScanEntry → Scan →
    Paging (List ScanEntry × Option ClientError × Scan)
  | 0, entries, s => return (entries, none, s)
  | pages + 1, entries, s => do
      match ← nextPage turns s with
      | (some (.ok (some page)), s) => drain turns pages (entries ++ page) s
      | (some (.ok none), s) => return (entries, none, s)
      | (some (.error e), s) => return (entries, some e, s)
      | (none, s) => return (entries, none, s)

end Scan
end GridClient
