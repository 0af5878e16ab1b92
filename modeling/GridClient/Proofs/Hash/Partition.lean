import GridClient.Proofs.Hash.Segment
import GridClient.Topology.SegmentMap
import Mathlib.Algebra.Group.Nat.Defs

/-!
# Places and segments

A segment consists of consecutive places of the hash space. All segments are of one size, the
number of places for each of them, rounded up, so the last segments may be left with fewer places
or none. None is left without any if there are few segments compared to the places.
-/

namespace GridClient
namespace Hash

/-- The segment that a place is in. -/
def segmentAt (place count : UInt32) : UInt32 :=
  place / segmentSize count

/-!
# The size in words
-/

/-- The words of 64 bits that come up when the size of a segment is computed. -/
structure SizeWords where
  divisor : UInt64
  sum : UInt64
  dividend : UInt64
  quotient : UInt64

def sizeWords (count : UInt32) : SizeWords :=
  let divisor := (max count 1).toUInt64
  let sum := UInt64.ofNat places + divisor
  let dividend := sum - 1
  { divisor, sum, dividend, quotient := dividend / divisor }

/-- No word is too narrow for its number and the divisor is not zero. The size of a segment is the
quotient, in 32 bits, and a place can be divided by it. -/
structure SizeWords.Exact (w : SizeWords) (count : UInt32) : Prop where
  divisor_eq : w.divisor.toNat = max count.toNat 1
  divisor_ne_zero : w.divisor ≠ 0
  sum_eq : w.sum.toNat = places + max count.toNat 1
  dividend_eq : w.dividend.toNat = places + max count.toNat 1 - 1
  quotient_eq : w.quotient.toNat = (places + max count.toNat 1 - 1) / max count.toNat 1
  size_eq : (segmentSize count).toNat = w.quotient.toNat
  size_ne_zero : segmentSize count ≠ 0

theorem toNat_max_one (count : UInt32) : (max count 1).toNat = max count.toNat 1 := by
  show (if count ≤ 1 then 1 else count).toNat = _
  split
  · next hle => exact (Nat.max_eq_right (UInt32.le_iff_toNat_le.1 hle)).symm
  · next hlt =>
    exact (Nat.max_eq_left (Nat.le_of_lt (UInt32.lt_iff_toNat_lt.1 (UInt32.not_le.1 hlt)))).symm

theorem max_one_ne_zero (count : UInt32) : max count 1 ≠ 0 := by
  intro hzero
  have hpos : 0 < (max count 1).toNat := by
    rw [toNat_max_one]
    exact Nat.lt_of_lt_of_le Nat.zero_lt_one (Nat.le_max_right _ _)
  rw [hzero] at hpos
  exact Nat.lt_irrefl _ hpos

/-- No segments are treated as one. -/
theorem segmentSize_max_one (count : UInt32) : segmentSize (max count 1) = segmentSize count := by
  unfold segmentSize
  rw [toNat_max_one, Nat.max_assoc, Nat.max_self]

theorem segmentSize_pos (count : UInt32) : 0 < (segmentSize count).toNat := by
  apply Nat.pos_of_ne_zero
  intro hzero
  have hcover := places_le (max_one_ne_zero count)
  rw [segmentSize_max_one, hzero, Nat.zero_mul] at hcover
  exact absurd hcover (by decide)

theorem exact_sizeWords (count : UInt32) : (sizeWords count).Exact count := by
  have hdivisor : (max count 1).toUInt64.toNat = max count.toNat 1 := by
    rw [UInt32.toNat_toUInt64, toNat_max_one]
  have hlow : 1 ≤ max count.toNat 1 := Nat.le_max_right _ _
  have hhigh : max count.toNat 1 < 2 ^ 32 := by
    rw [← toNat_max_one]
    exact UInt32.toNat_lt _
  have hplaces : (UInt64.ofNat places).toNat = places := rfl
  have hsum : (UInt64.ofNat places + (max count 1).toUInt64).toNat =
      places + max count.toNat 1 := by
    rw [UInt64.toNat_add, hplaces, hdivisor, Nat.mod_eq_of_lt]
    unfold places
    omega
  have hdividend : (UInt64.ofNat places + (max count 1).toUInt64 - 1).toNat =
      places + max count.toNat 1 - 1 := by
    rw [UInt64.toNat_sub_of_le, hsum]
    · rfl
    · rw [UInt64.le_iff_toNat_le, hsum]
      exact Nat.le_trans hlow (Nat.le_add_left _ _)
  have hquotient : ((UInt64.ofNat places + (max count 1).toUInt64 - 1) /
      (max count 1).toUInt64).toNat = (places + max count.toNat 1 - 1) / max count.toNat 1 := by
    rw [UInt64.toNat_div, hdividend, hdivisor]
  constructor
  case divisor_eq => exact hdivisor
  case divisor_ne_zero =>
    intro hzero
    have hnone : (0 : UInt64).toNat = max count.toNat 1 := hzero ▸ hdivisor
    exact Nat.ne_of_lt hlow hnone
  case sum_eq => exact hsum
  case dividend_eq => exact hdividend
  case quotient_eq => exact hquotient
  case size_eq =>
    rw [← segmentSize_max_one, toNat_segmentSize (max_one_ne_zero count), toNat_max_one]
    exact hquotient.symm
  case size_ne_zero =>
    intro hzero
    have hpos := segmentSize_pos count
    rw [hzero] at hpos
    exact Nat.lt_irrefl _ hpos

/-!
# The places of a segment
-/

/-- The places of a segment are consecutive. -/
theorem segmentAt_eq_iff {place count segment : UInt32} :
    segmentAt place count = segment ↔
      segment.toNat * (segmentSize count).toNat ≤ place.toNat ∧
        place.toNat < (segment.toNat + 1) * (segmentSize count).toNat := by
  rw [← UInt32.toNat_inj, segmentAt, UInt32.toNat_div, Nat.div_eq_iff (segmentSize_pos count),
    Nat.add_mul, Nat.one_mul]
  have hpos := segmentSize_pos count
  omega

theorem segmentAt_le {place place' : UInt32} (count : UInt32) (h : place ≤ place') :
    segmentAt place count ≤ segmentAt place' count := by
  rw [UInt32.le_iff_toNat_le, segmentAt, segmentAt, UInt32.toNat_div, UInt32.toNat_div]
  exact Nat.div_le_div_right (UInt32.le_iff_toNat_le.1 h)

/-- A segment has a place if the segments before it leave one. -/
theorem exists_place_iff {count segment : UInt32} :
    (∃ place, place.toNat < places ∧ segmentAt place count = segment) ↔
      segment.toNat * (segmentSize count).toNat < places := by
  constructor
  · intro h
    rcases h with ⟨place, hplace, hsegment⟩
    exact Nat.lt_of_le_of_lt (segmentAt_eq_iff.1 hsegment).1 hplace
  · intro hfirst
    have hwidth : places < UInt32.size := by decide
    have hplace : (UInt32.ofNat (segment.toNat * (segmentSize count).toNat)).toNat =
        segment.toNat * (segmentSize count).toNat :=
      UInt32.toNat_ofNat_of_lt' (Nat.lt_trans hfirst hwidth)
    refine ⟨_, hplace ▸ hfirst, segmentAt_eq_iff.2 ?_⟩
    rw [hplace, Nat.add_mul, Nat.one_mul]
    exact ⟨Nat.le_refl _, Nat.lt_add_of_pos_right (segmentSize_pos count)⟩

/-- Rounding the size up costs fewer places than the last segment has. -/
theorem mul_segmentSize_lt {count segment : UInt32} (hsegment : segment < count)
    (hfew : (count.toNat - 1) ^ 2 < places) :
    segment.toNat * (segmentSize count).toNat < places := by
  have hlt : segment.toNat < count.toNat := UInt32.lt_iff_toNat_lt.1 hsegment
  have hpos : 0 < count.toNat := Nat.lt_of_le_of_lt (Nat.zero_le _) hlt
  have hcount : count ≠ 0 := by
    rintro rfl
    exact Nat.lt_irrefl _ hpos
  rcases Nat.exists_eq_succ_of_ne_zero (Nat.ne_of_gt hpos) with ⟨last, hlast⟩
  have hsize : (segmentSize count).toNat * (last + 1) ≤ places + last := by
    rw [toNat_segmentSize hcount, hlast]
    exact Nat.div_mul_le_self _ _
  rw [hlast, Nat.succ_sub_one] at hfew
  apply Nat.lt_of_mul_lt_mul_right (a := last + 1)
  calc segment.toNat * (segmentSize count).toNat * (last + 1)
      ≤ last * (places + last) := by
        rw [Nat.mul_assoc]
        exact Nat.mul_le_mul (by omega) hsize
    _ = last * places + last ^ 2 := by rw [Nat.mul_add, Nat.pow_two]
    _ < places * (last + 1) := by
        rw [Nat.mul_add, Nat.mul_one, Nat.mul_comm last]
        exact Nat.add_lt_add_left hfew _

end Hash

/-!
# Segments of a map
-/

/-- Whatever the number of segments that is counted in 32 bits: every key is in an entry of the
table of owners. -/
theorem SegmentMap.segmentOf_lt_length (m : SegmentMap) (key : Bytes) :
    (m.segmentOf key).toNat < m.owners.length := by
  have hcounted : m.count.toNat ≤ m.owners.length := by
    unfold count
    rw [UInt32.toNat_ofNat']
    exact Nat.mod_le _ _
  have hsome : 1 ≤ m.owners.length := List.length_pos_iff.2 m.nonempty
  have hlt := Hash.segmentOf_lt_count key (Hash.max_one_ne_zero m.count)
  rw [UInt32.lt_iff_toNat_lt, Hash.toNat_max_one, Hash.segmentOf, Hash.segmentSize_max_one] at hlt
  exact Nat.lt_of_lt_of_le hlt (Nat.max_le.2 ⟨hcounted, hsome⟩)

theorem SegmentMap.ownersOf_eq_get (m : SegmentMap) (key : Bytes) :
    m.ownersOf key = m.owners.get ⟨(m.segmentOf key).toNat, m.segmentOf_lt_length key⟩ := by
  unfold ownersOf ownersOfSegment
  rw [List.getElem?_eq_getElem (m.segmentOf_lt_length key)]
  rfl

namespace Hash

/-- Every key is in one of the segments, and in a map it is in one that has an entry. The size of
a segment is computed without an overflow, whatever the number of segments. Segments follow each
other in the order of the places, and none is without a place if their number, less one, is below
the root of the number of places. -/
theorem segments_partition (count : UInt32) :
    (∀ key, count ≠ 0 → segmentOf key count < count) ∧
    (∀ (m : SegmentMap) key, ∃ h : (m.segmentOf key).toNat < m.owners.length,
      m.ownersOf key = m.owners.get ⟨(m.segmentOf key).toNat, h⟩) ∧
    (sizeWords count).Exact count ∧
    (∀ key, (place key).toNat < places ∧ segmentOf key count = segmentAt (place key) count) ∧
    (∀ place place', place ≤ place' → segmentAt place count ≤ segmentAt place' count) ∧
    ((count.toNat - 1) ^ 2 < places → ∀ segment < count,
      ∃ place, place.toNat < places ∧ segmentAt place count = segment) := by
  refine ⟨?_, ?_, ?_, ?_, ?_, ?_⟩
  · intro key hcount
    exact segmentOf_lt_count key hcount
  · intro m key
    exact ⟨m.segmentOf_lt_length key, m.ownersOf_eq_get key⟩
  · exact exact_sizeWords count
  · intro key
    exact ⟨place_lt key, rfl⟩
  · intro place place' hle
    exact segmentAt_le count hle
  · intro hfew segment hsegment
    exact exists_place_iff.2 (mul_segmentSize_lt hsegment hfew)

/-- With 46341 segments, the largest number of which the rule promises it, the last one still has
a place. -/
theorem segments_partition_root :
    segmentOf [107] 46341 < 46341 ∧ (46341 - 1) ^ 2 < places ∧ places ≤ 46341 ^ 2 ∧
      (∃ place, place.toNat < places ∧ segmentAt place 46341 = 46340) ∧
      segmentAt 5 46341 ≤ segmentAt 46340 46341 := by
  rcases segments_partition 46341 with ⟨hrange, -, -, -, hmono, hreached⟩
  refine ⟨hrange [107] (by decide), by decide, by decide, ?_, hmono 5 46340 (by decide)⟩
  exact hreached (by decide) 46340 (by decide)

/-- Of 65537 segments the last one has no place: they are of 32768 places each. -/
example : ¬ ∃ place, place.toNat < places ∧ segmentAt place 65537 = 65536 := by
  rw [exists_place_iff]
  decide

end Hash
end GridClient
