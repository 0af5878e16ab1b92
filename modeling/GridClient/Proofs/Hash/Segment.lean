import GridClient.Hash.Segment

/-!
# The range of segments

The segments of a positive number cover the whole hash space, so every key falls into one
of them.
-/

namespace GridClient
namespace Hash

theorem place_lt (key : Bytes) : (place key).toNat < places := by
  have hmask : (place key).toNat ≤ (0x7fffffff : UInt32).toNat := by
    unfold place
    rw [UInt32.toNat_and]
    exact Nat.and_le_right
  exact Nat.lt_of_le_of_lt hmask (by decide)

theorem toNat_pos {count : UInt32} (h : count ≠ 0) : 0 < count.toNat := by
  rw [Nat.pos_iff_ne_zero]
  intro hzero
  apply h
  exact UInt32.toNat_inj.1 hzero

theorem toNat_segmentSize {count : UInt32} (h : count ≠ 0) :
    (segmentSize count).toNat = (places + count.toNat - 1) / count.toNat := by
  have hpos := toNat_pos h
  unfold segmentSize
  dsimp only
  rw [Nat.max_eq_left hpos, UInt32.toNat_ofNat', Nat.mod_eq_of_lt]
  rw [Nat.div_lt_iff_lt_mul hpos]
  unfold places
  have hlt := count.toNat_lt
  omega

/-- All segments together cover the hash space. -/
theorem places_le {count : UInt32} (h : count ≠ 0) :
    places ≤ (segmentSize count).toNat * count.toNat := by
  have hpos := toNat_pos h
  have hrounded := Nat.lt_mul_div_succ (places + count.toNat - 1) hpos
  rw [toNat_segmentSize h, Nat.mul_comm]
  rw [Nat.mul_add, Nat.mul_one] at hrounded
  omega

theorem segmentOf_lt_count (key : Bytes) {count : UInt32} (h : count ≠ 0) :
    segmentOf key count < count := by
  rw [UInt32.lt_iff_toNat_lt]
  unfold segmentOf
  rw [UInt32.toNat_div]
  exact Nat.div_lt_of_lt_mul (Nat.lt_of_lt_of_le (place_lt key) (places_le h))

end Hash
end GridClient
