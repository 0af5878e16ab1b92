import GridClient.Address
import GridClient.Hash.Segment
import GridClient.SegmentSet
import GridClient.Table

/-!
# Segment maps

The owners of every segment, the primary one first. There is at least one
segment.
-/

namespace GridClient

structure SegmentMap where
  owners : List (List NodeAddress)
  nonempty : owners ≠ []
  deriving DecidableEq

namespace SegmentMap

def ofOwners (owners : List (List NodeAddress)) : Except ClientError SegmentMap :=
  if h : owners = [] then .error (.protocol .noSegments) else .ok ⟨owners, h⟩

def serverAt (servers : List NodeAddress) (index : UInt32) : Except ClientError NodeAddress :=
  match servers[index.toNat]? with
  | some a => .ok a
  | none => .error (.protocol (.unknownServer index))

/-- The map in which each owner is given by its position in a list of servers. -/
def ofIndices (servers : List NodeAddress) (table : List (List UInt32)) :
    Except ClientError SegmentMap := do
  let owners ← table.mapM fun indices => indices.mapM (serverAt servers)
  ofOwners owners

def count (m : SegmentMap) : UInt32 :=
  UInt32.ofNat m.owners.length

def segmentOf (m : SegmentMap) (key : Bytes) : UInt32 :=
  Hash.segmentOf key m.count

/-- No segment beyond the table has owners. -/
def ownersOfSegment (m : SegmentMap) (segment : UInt32) : List NodeAddress :=
  (m.owners[segment.toNat]?).getD []

def ownersOf (m : SegmentMap) (key : Bytes) : List NodeAddress :=
  m.ownersOfSegment (m.segmentOf key)

def primaryOfSegment (m : SegmentMap) (segment : UInt32) : Option NodeAddress :=
  (m.ownersOfSegment segment).head?

def primaryOf (m : SegmentMap) (key : Bytes) : Option NodeAddress :=
  (m.ownersOf key).head?

def credit (t : Table NodeAddress SegmentSet) (a : NodeAddress) (segment : Nat) :
    Table NodeAddress SegmentSet :=
  t.alter a fun s => (s.getD .empty).insert (UInt32.ofNat segment)

def primaries (m : SegmentMap) : Table NodeAddress SegmentSet :=
  m.owners.zipIdx.foldl
    (fun t (owners, segment) =>
      match owners.head? with
      | some a => credit t a segment
      | none => t) []

/-- Puts every segment into the sets of all its owners. -/
def creditOwners (m : SegmentMap) (t : Table NodeAddress SegmentSet) :
    Table NodeAddress SegmentSet :=
  m.owners.zipIdx.foldl
    (fun t (owners, segment) => owners.foldl (fun t a => credit t a segment) t) t

end SegmentMap
end GridClient
