import GridClient.SegmentSet

/-!
# Members of sets of segments
-/

namespace GridClient
namespace SegmentSet

@[simp] theorem contains_iff {s : SegmentSet} {n : UInt32} : s.contains n = true ↔ n ∈ s :=
  List.contains_iff_mem

@[simp] theorem contains_insert (s : SegmentSet) (n m : UInt32) :
    (s.insert m).contains n = (decide (n = m) || s.contains n) := by
  rw [Bool.eq_iff_iff]
  simp

@[simp] theorem contains_empty (n : UInt32) : SegmentSet.empty.contains n = false :=
  rfl

@[simp] theorem not_mem_empty (n : UInt32) : n ∉ SegmentSet.empty :=
  List.not_mem_nil

theorem isEmpty_eq_false_iff {s : SegmentSet} : s.isEmpty = false ↔ ∃ n, n ∈ s :=
  List.isEmpty_eq_false_iff_exists_mem

theorem nodup_toList (s : SegmentSet) : s.toList.Nodup :=
  s.sorted.imp UInt32.ne_of_lt

theorem mem_below {n count : UInt32} : n ∈ below count ↔ n < count := by
  change n ∈ (List.finRange count.toNat).map (fun i => UInt32.ofNat i.val) ↔ _
  rw [List.mem_map, UInt32.lt_iff_toNat_lt]
  constructor
  · intro hmem
    rcases hmem with ⟨i, -, rfl⟩
    rw [UInt32.toNat_ofNat', Nat.mod_eq_of_lt (Nat.lt_trans i.isLt count.toNat_lt)]
    exact i.isLt
  · intro h
    exact ⟨⟨n.toNat, h⟩, List.mem_finRange _, UInt32.ofNat_toNat⟩

end SegmentSet
end GridClient
