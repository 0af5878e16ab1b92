import GridClient.Hash.Segment
import GridClient.SegmentSet

/-!
# Delivered keys

A scan delivers each key once. The tracker remembers the keys it has accepted,
under their segments or, as long as the number of segments is unknown, under
none. Once a segment is complete its keys are forgotten: all of them are known
to have been delivered.
-/

namespace GridClient

structure Tracker where
  seen : List (Option UInt32 × Bytes) := []
  completed : SegmentSet := .empty
  deriving DecidableEq, Repr, Inhabited

namespace Tracker

def isComplete (t : Tracker) (segment : UInt32) : Bool :=
  t.completed.contains segment

def remember (t : Tracker) (segment : Option UInt32) (key : Bytes) : Tracker :=
  if t.seen.contains (segment, key) then t else { t with seen := (segment, key) :: t.seen }

/-- Whether a key is new. A new key is remembered. -/
def track (t : Tracker) (segment : Option UInt32) (key : Bytes) : Bool × Tracker :=
  if segment.any t.isComplete || t.seen.contains (segment, key) then (false, t)
  else (true, t.remember segment key)

def complete (t : Tracker) (segment : UInt32) : Tracker where
  seen := t.seen.filter fun entry => entry.1 != some segment
  completed := t.completed.insert segment

/-- Moves a key under the segment it belongs to, unless that is complete. -/
def file (count : UInt32) (t : Tracker) (key : Bytes) : Tracker :=
  let segment := Hash.segmentOf key count
  if t.isComplete segment then t else t.remember (some segment) key

/-- Once the number of segments is known, every key goes under its segment. -/
def assign (t : Tracker) (count : UInt32) : Tracker :=
  let (loose, filed) := t.seen.partition fun entry => entry.1.isNone
  (loose.map Prod.snd).foldl (file count) { t with seen := filed }

end Tracker
end GridClient
