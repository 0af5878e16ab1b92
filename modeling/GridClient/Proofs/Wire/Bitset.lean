import GridClient.Wire.Bitset
import Mathlib.Algebra.Group.Nat.Defs
import Mathlib.Data.List.DropRight
import Mathlib.Data.List.GetD
import Mathlib.Data.List.Induction

/-!
# Segments and their bits

Segments become bits in any order and as often as they come, and are read out in increasing order,
each once. A string of bits is determined by the bits that are set, except for zero bytes at its
end, so nothing else is lost on the way back.
-/

namespace GridClient
namespace Bitset

/-!
# Single bits
-/

/-- The bits are counted through all bytes; behind the last byte there are none. -/
def testBit (bits : Bytes) (i : Nat) : Bool :=
  (bits.getD (i / 8) 0).toNat.testBit (i % 8)

@[simp] theorem testBit_nil (i : Nat) : testBit [] i = false := by
  simp [testBit]

theorem testBit_mul_add (bits : Bytes) (i : Nat) {k : Nat} (h : k < 8) :
    testBit bits (i * 8 + k) = (bits.getD i 0).toNat.testBit k := by
  have hplace : (i * 8 + k) / 8 = i ∧ (i * 8 + k) % 8 = k := by omega
  unfold testBit
  rw [hplace.1, hplace.2]

/-- A byte has no other bits than the eight that are looked at. -/
theorem getD_eq_of_testBit {a b : Bytes} (h : ∀ i, testBit a i = testBit b i) (i : Nat) :
    a.getD i 0 = b.getD i 0 := by
  apply UInt8.toNat_inj.1
  apply Nat.eq_of_testBit_eq
  intro k
  by_cases hk : k < 8
  · rw [← testBit_mul_add a i hk, ← testBit_mul_add b i hk, h]
  · have hhigh : ∀ x : UInt8, x.toNat.testBit k = false := by
      intro x
      apply Nat.testBit_lt_two_pow
      exact Nat.lt_of_lt_of_le x.toNat_lt (Nat.pow_le_pow_right (by decide) (by omega))
    rw [hhigh, hhigh]

/-!
# Setting bits
-/

theorem getD_setBits (mask : UInt8) (i : Nat) (bits : Bytes) (j : Nat) :
    (setBits mask i bits).getD j 0 = bits.getD j 0 ||| if j = i then mask else 0 := by
  induction i generalizing bits j with
  | zero => cases bits <;> cases j <;> simp [setBits]
  | succ i ih =>
      cases bits with
      | nil =>
          cases j with
          | zero => simp [setBits]
          | succ j => simpa [setBits] using ih [] j
      | cons b bits =>
          cases j with
          | zero => simp [setBits]
          | succ j => simpa [setBits] using ih bits j

theorem toNat_mask {k : Nat} (hk : k < 8) : ((1 : UInt8) <<< UInt8.ofNat k).toNat = 2 ^ k := by
  have hpow : 2 ^ k < 2 ^ 8 := Nat.pow_lt_pow_right (by decide) hk
  have hplace : (UInt8.ofNat k).toNat % 8 = k := by
    rw [UInt8.toNat_ofNat']
    omega
  rw [UInt8.toNat_shiftLeft, hplace, Nat.shiftLeft_eq]
  show 1 * 2 ^ k % 2 ^ 8 = 2 ^ k
  rw [Nat.one_mul, Nat.mod_eq_of_lt hpow]

/-- Adding a segment sets its bit and no other. -/
theorem testBit_setBits (s : Nat) (bits : Bytes) (i : Nat) :
    testBit (setBits (1 <<< UInt8.ofNat (s % 8)) (s / 8) bits) i =
      (testBit bits i || decide (s = i)) := by
  have hplace : s = i ↔ i / 8 = s / 8 ∧ s % 8 = i % 8 := by omega
  unfold testBit
  rw [getD_setBits, UInt8.toNat_or, Nat.testBit_or]
  congr 1
  split
  · next hbyte =>
    rw [toNat_mask (Nat.mod_lt _ (by decide)), Nat.testBit_two_pow]
    simp [hplace, hbyte]
  · next hbyte => simp [hplace, hbyte]

theorem ofSegments_concat (segments : List UInt32) (s : UInt32) :
    ofSegments (segments ++ [s]) =
      setBits (1 <<< UInt8.ofNat (s.toNat % 8)) (s.toNat / 8) (ofSegments segments) := by
  unfold ofSegments
  rw [List.foldl_append, List.foldl_cons, List.foldl_nil]

theorem testBit_ofSegments (segments : List UInt32) (i : Nat) :
    testBit (ofSegments segments) i = true ↔ ∃ s ∈ segments, s.toNat = i := by
  induction segments using List.reverseRecOn with
  | nil => simp [ofSegments]
  | append_singleton segments s ih =>
      rw [ofSegments_concat, testBit_setBits, Bool.or_eq_true, ih]
      simp only [decide_eq_true_eq, List.mem_append, List.mem_singleton, or_and_right, exists_or,
        exists_eq_left]

theorem length_setBits (mask : UInt8) (i : Nat) (bits : Bytes) :
    (setBits mask i bits).length = max (i + 1) bits.length := by
  induction i generalizing bits with
  | zero => cases bits <;> simp [setBits]
  | succ i ih => cases bits <;> simp [setBits, ih]

/-- The segments have 32 bits, three of which are a place in a byte. -/
theorem length_ofSegments_le (segments : List UInt32) : (ofSegments segments).length ≤ 2 ^ 29 := by
  induction segments using List.reverseRecOn with
  | nil => exact Nat.zero_le _
  | append_singleton segments s ih =>
      have hs := s.toNat_lt
      rw [ofSegments_concat, length_setBits]
      omega

/-!
# Reading bits
-/

theorem testBit_concat_of_lt {bits : Bytes} (b : UInt8) {i : Nat} (h : i < bits.length * 8) :
    testBit (bits ++ [b]) i = testBit bits i := by
  unfold testBit
  rw [List.getD_append _ _ _ _ (by omega)]

theorem testBit_concat_add (bits : Bytes) (b : UInt8) {k : Nat} (h : k < 8) :
    testBit (bits ++ [b]) (bits.length * 8 + k) = b.toNat.testBit k := by
  rw [testBit_mul_add _ _ h, List.getD_append_right _ _ _ _ (Nat.le_refl _), Nat.sub_self]
  rfl

theorem testBit_concat_zero (bits : Bytes) (i : Nat) :
    testBit (bits ++ [0]) i = testBit bits i := by
  unfold testBit
  by_cases h : i / 8 < bits.length
  · rw [List.getD_append _ _ _ _ h]
  · have hbeyond := Nat.not_lt.1 h
    rw [List.getD_append_right _ _ _ _ hbeyond, List.getD_eq_default _ _ hbeyond,
      List.getD_eq_getElem?_getD, List.getElem?_getD_singleton_default_eq]

theorem toSegments_concat (bits : Bytes) (b : UInt8) :
    toSegments (bits ++ [b]) = toSegments bits ++ bitsOf bits.length b := by
  simp [toSegments, List.zipIdx_append]

/-- No segment is read from zero bytes that are added at the end. -/
theorem toSegments_append_zeros (bits : Bytes) (n : Nat) :
    toSegments (bits ++ List.replicate n 0) = toSegments bits := by
  induction n with
  | zero => rw [List.replicate_zero, List.append_nil]
  | succ n ih =>
      have hzero : ∀ i, bitsOf i 0 = [] := by
        simp [bitsOf]
      rw [List.replicate_succ', ← List.append_assoc, toSegments_concat, ih, hzero, List.append_nil]

/-- All places of bits are looked at in their order. -/
theorem toSegments_eq (bits : Bytes) :
    toSegments bits = ((List.range (bits.length * 8)).filter (testBit bits)).map UInt32.ofNat := by
  induction bits using List.reverseRecOn with
  | nil => rfl
  | append_singleton bits b ih =>
      have hbefore : ∀ i ∈ List.range (bits.length * 8), testBit (bits ++ [b]) i = testBit bits i :=
        fun i hi => testBit_concat_of_lt b (List.mem_range.1 hi)
      have hlast : ∀ k ∈ List.range 8,
          testBit (bits ++ [b]) (bits.length * 8 + k) = b.toNat.testBit k :=
        fun k hk => testBit_concat_add bits b (List.mem_range.1 hk)
      rw [toSegments_concat, ih, List.length_append, List.length_singleton, Nat.add_mul,
        Nat.one_mul, List.range_add, List.filter_append, List.map_append,
        List.filter_congr hbefore, List.filter_map, List.map_map, bitsOf]
      congr 2
      exact List.filter_congr fun k hk => (hlast k hk).symm

variable {bits : Bytes}

theorem lt_of_testBit {i : Nat} (h : testBit bits i = true) : i < bits.length * 8 := by
  apply Nat.lt_of_not_le
  intro hbeyond
  rw [testBit, List.getD_eq_default _ _ (by omega)] at h
  simp at h

/-- Up to this length, the place of each bit has 32 bits. -/
theorem toNat_place (h : bits.length ≤ 2 ^ 29) {i : Nat} (hi : i < bits.length * 8) :
    (UInt32.ofNat i).toNat = i := by
  have hsize : i < UInt32.size := by
    show i < 2 ^ 32
    omega
  exact UInt32.toNat_ofNat_of_lt' hsize

theorem mem_toSegments (h : bits.length ≤ 2 ^ 29) (s : UInt32) :
    s ∈ toSegments bits ↔ testBit bits s.toNat = true := by
  rw [toSegments_eq]
  simp only [List.mem_map, List.mem_filter, List.mem_range]
  constructor
  · rintro ⟨i, ⟨hi, hbit⟩, rfl⟩
    rwa [toNat_place h hi]
  · intro hbit
    exact ⟨s.toNat, ⟨lt_of_testBit hbit, hbit⟩, UInt32.ofNat_toNat⟩

theorem pairwise_toSegments (h : bits.length ≤ 2 ^ 29) : (toSegments bits).Pairwise (· < ·) := by
  rw [toSegments_eq, List.pairwise_map]
  refine (List.pairwise_lt_range.filter _).imp_of_mem ?_
  intro i j hi hj hlt
  have hi := List.mem_range.1 (List.mem_filter.1 hi).1
  have hj := List.mem_range.1 (List.mem_filter.1 hj).1
  rw [UInt32.lt_iff_toNat_lt, toNat_place h hi, toNat_place h hj]
  exact hlt

/-!
# Zero bytes at the end
-/

/-- The last byte, if there is one, has a bit that is set. -/
def Trimmed (bits : Bytes) : Prop :=
  bits ≠ [] → bits.getD (bits.length - 1) 0 ≠ 0

theorem trimmed_rdropWhile (bits : Bytes) : Trimmed (bits.rdropWhile (· == 0)) := by
  intro hne
  have hlast := List.rdropWhile_last_not (· == 0) bits hne
  rw [List.getD_eq_getElem _ _ (Nat.sub_one_lt (mt List.length_eq_zero_iff.1 hne))]
  rwa [List.getLast_eq_getElem, beq_iff_eq] at hlast

theorem testBit_rdropWhile (bits : Bytes) (i : Nat) :
    testBit (bits.rdropWhile (· == 0)) i = testBit bits i := by
  induction bits using List.reverseRecOn with
  | nil => rfl
  | append_singleton bits b ih =>
      rw [List.rdropWhile_concat]
      split
      · next hzero =>
        rw [beq_iff_eq] at hzero
        rw [ih, hzero, testBit_concat_zero]
      · rfl

/-- The byte that is touched is the last one, or it stays behind the last one. -/
theorem Trimmed.setBits {mask : UInt8} (hmask : mask ≠ 0) (i : Nat) (h : Trimmed bits) :
    Trimmed (setBits mask i bits) := by
  intro _
  rw [length_setBits, getD_setBits]
  split
  · next hlast =>
    intro hzero
    exact hmask (UInt8.or_eq_zero_iff.1 hzero).2
  · next hother =>
    have hlonger : max (i + 1) bits.length = bits.length := by omega
    have hne : bits ≠ [] := List.ne_nil_of_length_pos (by omega)
    rw [hlonger, UInt8.or_zero]
    exact h hne

theorem trimmed_ofSegments (segments : List UInt32) : Trimmed (ofSegments segments) := by
  induction segments using List.reverseRecOn with
  | nil => exact fun h => absurd rfl h
  | append_singleton segments s ih =>
      have hmask : (1 : UInt8) <<< UInt8.ofNat (s.toNat % 8) ≠ 0 := by
        rw [Ne, ← UInt8.toNat_inj, toNat_mask (Nat.mod_lt _ (by decide))]
        exact Nat.ne_of_gt (Nat.two_pow_pos _)
      rw [ofSegments_concat]
      exact ih.setBits hmask _

/-- A byte beyond the end of the other string would be zero, as all bits there are. -/
theorem length_le_of_testBit_eq {a b : Bytes} (hb : Trimmed b)
    (h : ∀ i, testBit a i = testBit b i) : b.length ≤ a.length := by
  apply Nat.le_of_not_lt
  intro hlt
  apply hb (List.ne_nil_of_length_pos (Nat.zero_lt_of_lt hlt))
  rw [← getD_eq_of_testBit h, List.getD_eq_default _ _ (by omega)]

theorem eq_of_testBit_eq {a b : Bytes} (ha : Trimmed a) (hb : Trimmed b)
    (h : ∀ i, testBit a i = testBit b i) : a = b := by
  have hlength : a.length = b.length :=
    Nat.le_antisymm (length_le_of_testBit_eq ha fun i => (h i).symm) (length_le_of_testBit_eq hb h)
  apply List.ext_getElem hlength
  intro i hi hi'
  have hbyte := getD_eq_of_testBit h i
  rwa [List.getD_eq_getElem _ _ hi, List.getD_eq_getElem _ _ hi'] at hbyte

/-!
# There and back
-/

theorem mem_toSegments_ofSegments (segments : List UInt32) (s : UInt32) :
    s ∈ toSegments (ofSegments segments) ↔ s ∈ segments := by
  rw [mem_toSegments (length_ofSegments_le segments), testBit_ofSegments]
  simp only [UInt32.toNat_inj, exists_eq_right]

theorem ofSegments_toSegments (h : bits.length ≤ 2 ^ 29) :
    ofSegments (toSegments bits) = bits.rdropWhile (· == 0) := by
  apply eq_of_testBit_eq (trimmed_ofSegments _) (trimmed_rdropWhile bits)
  intro i
  rw [Bool.eq_iff_iff, testBit_ofSegments, testBit_rdropWhile]
  constructor
  · rintro ⟨s, hs, rfl⟩
    exact (mem_toSegments h s).1 hs
  · intro hbit
    have hs := toNat_place h (lt_of_testBit hbit)
    exact ⟨UInt32.ofNat i, (mem_toSegments h _).2 (by rwa [hs]), hs⟩

/-- Segments are read back from their bits in strictly increasing order, exactly those that were
written, whatever their order was and however often they came. The bits of the segments that are
read from a string of bytes make the same string, without the zero bytes at its end; up to 2 ^ 29
bytes the number of each segment has 32 bits. -/
theorem segments_kept :
    (∀ segments : List UInt32,
      (toSegments (ofSegments segments)).Pairwise (· < ·) ∧
        ∀ s, s ∈ toSegments (ofSegments segments) ↔ s ∈ segments) ∧
    ∀ bits : Bytes, bits.length ≤ 2 ^ 29 →
      ofSegments (toSegments bits) = bits.rdropWhile (· == 0) := by
  refine ⟨?_, fun bits h => ofSegments_toSegments h⟩
  intro segments
  exact ⟨pairwise_toSegments (length_ofSegments_le segments), mem_toSegments_ofSegments segments⟩

/-- Segments that come twice and out of order, and bytes with zeros between and behind them. -/
theorem segments_kept_unordered :
    (∀ s, s ∈ toSegments (ofSegments [9, 0, 31, 9, 3]) ↔ s ∈ [9, 0, 31, 9, 3]) ∧
      ([9, 2, 0, 128, 0, 0] : Bytes).length ≤ 2 ^ 29 ∧
      ofSegments (toSegments [9, 2, 0, 128, 0, 0]) = [9, 2, 0, 128] := by
  have hlength : ([9, 2, 0, 128, 0, 0] : Bytes).length ≤ 2 ^ 29 := by
    decide
  exact ⟨(segments_kept.1 [9, 0, 31, 9, 3]).2, hlength, segments_kept.2 _ hlength⟩

end Bitset
end GridClient
