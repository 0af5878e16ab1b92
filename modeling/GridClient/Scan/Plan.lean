import GridClient.Call.Request
import GridClient.Scan.Tracker

/-!
# Scan plans

A scan walks over the entries of a cache, segment by segment group. Its plan lists
the groups that are still to be started, each with the node that should hold the
iteration; the plan is made anew whenever the topology may have changed, and
covers exactly the segments that have not been completed.
-/

namespace GridClient

structure ScanOptions where
  batch : Option UInt32 := none
  metadata : Bool := false
  filter : Option NamedFactory := none
  segments : Option SegmentSet := none

inductive ScanState where
  | notStarted
  | running
  | ended
  deriving DecidableEq, Repr

def ScanState.title : ScanState → String
  | notStarted => "NotStarted"
  | running => "Running"
  | ended => "Ended"

/-- Segments to be walked over in one iteration, all segments if none are named. -/
structure ScanGroup where
  target : Option NodeAddress
  segments : Option SegmentSet
  deriving DecidableEq

structure ActiveIteration where
  cursor : Cursor
  segments : Option SegmentSet
  deriving DecidableEq

structure Scan where
  cache : RemoteCache
  flags : Flags
  options : ScanOptions
  segmentCount : Option UInt32 := none
  tracker : Tracker := {}
  plan : List ScanGroup := []
  active : Option ActiveIteration := none
  state : ScanState := .notStarted
  failures : Nat := 0

namespace Scan

/-- The segments that the scan is to walk over, if they are known. -/
def requested (s : Scan) : Option SegmentSet :=
  match s.options.segments with
  | some segments => some segments
  | none => s.segmentCount.map SegmentSet.below

def remaining (s : Scan) : Option SegmentSet :=
  s.requested.map fun segments => segments.filter fun n => !s.tracker.isComplete n

/-- Whether a group without a node comes first, or else the one with the lower address. -/
def groupBefore (a b : Option NodeAddress × SegmentSet) : Bool :=
  match a.1, b.1 with
  | none, _ => true
  | some _, none => false
  | some x, some y => x.before y

/-- Groups segments by their primary owners, in the order of the addresses. -/
def groupByPrimary (m : SegmentMap) (segments : List UInt32) : List ScanGroup :=
  let groups :=
    segments.foldl
      (fun groups n =>
        Table.alter groups (m.primaryOfSegment n) fun group => (group.getD .empty).insert n) []
  (groups.mergeSort groupBefore).map fun (target, segments) =>
    { target, segments := some segments }

/-- The plan without a usable segment map: one group for any node, if anything is left. -/
def looseGroups (s : Scan) : List ScanGroup :=
  match s.remaining with
  | some segments =>
      if segments.isEmpty then [] else [{ target := none, segments := some segments }]
  | none => [{ target := none, segments := none }]

/-- Adopts the number of segments, once. The keys delivered so far are filed under
their segments. -/
def adopt (s : Scan) (count : UInt32) : Scan :=
  match s.segmentCount with
  | some _ => s
  | none => { s with segmentCount := some count, tracker := s.tracker.assign count }

/-- Plans the segments that are left. A segment map with another number of segments
than the scan's is of no use to it. -/
def replan (s : Scan) (t : Topology) : Scan :=
  match t.segments with
  | some m =>
      if s.segmentCount.all (· == m.count) then
        let s := s.adopt m.count
        { s with plan := groupByPrimary m ((s.remaining.map SegmentSet.toList).getD []) }
      else { s with plan := s.looseGroups }
  | none => { s with plan := s.looseGroups }

def describe (s : Scan) : String :=
  "RemoteScan \x7b cache: " ++ Quoted.text s.cache.name ++ ", state: " ++ s.state.title
    ++ ", completed_segments: " ++ toString s.tracker.completed.size
    ++ ", pending_groups: " ++ toString s.plan.length ++ " \x7d"

end Scan
end GridClient
