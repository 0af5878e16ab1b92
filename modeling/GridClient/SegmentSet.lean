/-!
# Sets of segments

A set of segment numbers, kept as a strictly increasing list, so that equal sets
are equal values and a set is read out in order.
-/

namespace GridClient

structure SegmentSet where
  toList : List UInt32
  sorted : toList.Pairwise (· < ·)
  deriving DecidableEq

namespace SegmentSet

instance : Repr SegmentSet where
  reprPrec s n := reprPrec s.toList n

def empty : SegmentSet where
  toList := []
  sorted := .nil

instance : Inhabited SegmentSet where
  default := empty

instance : Membership UInt32 SegmentSet where
  mem s n := n ∈ s.toList

instance (n : UInt32) (s : SegmentSet) : Decidable (n ∈ s) :=
  inferInstanceAs (Decidable (n ∈ s.toList))

def contains (s : SegmentSet) (n : UInt32) : Bool :=
  s.toList.contains n

def isEmpty (s : SegmentSet) : Bool :=
  s.toList.isEmpty

def size (s : SegmentSet) : Nat :=
  s.toList.length

/-!
# Insertion
-/

def insertInto (n : UInt32) : List UInt32 → List UInt32
  | [] => [n]
  | m :: rest =>
      if n < m then n :: m :: rest
      else if n = m then m :: rest
      else m :: insertInto n rest

theorem mem_insertInto (k n : UInt32) (l : List UInt32) :
    k ∈ insertInto n l ↔ k = n ∨ k ∈ l := by
  induction l with
  | nil => simp [insertInto]
  | cons m rest ih =>
      unfold insertInto
      split
      · simp
      · split
        · subst_vars
          simp
        · simp [ih, or_left_comm]

theorem pairwise_insertInto (n : UInt32) {l : List UInt32} (h : l.Pairwise (· < ·)) :
    (insertInto n l).Pairwise (· < ·) := by
  induction l with
  | nil => simp [insertInto]
  | cons m rest ih =>
      rw [List.pairwise_cons] at h
      unfold insertInto
      split
      · rename_i hn
        simp only [List.pairwise_cons, List.mem_cons, forall_eq_or_imp]
        exact ⟨⟨hn, fun a ha => UInt32.lt_trans hn (h.1 a ha)⟩, h.1, h.2⟩
      · split
        · exact List.pairwise_cons.2 h
        · rename_i hn hne
          refine List.pairwise_cons.2 ⟨fun a ha => ?_, ih h.2⟩
          rcases (mem_insertInto a n rest).1 ha with rfl | ha
          · exact UInt32.lt_of_le_of_ne (UInt32.not_lt.1 hn) (Ne.symm hne)
          · exact h.1 a ha

def insert (s : SegmentSet) (n : UInt32) : SegmentSet :=
  ⟨insertInto n s.toList, pairwise_insertInto n s.sorted⟩

@[simp] theorem mem_insert {s : SegmentSet} {k n : UInt32} :
    k ∈ s.insert n ↔ k = n ∨ k ∈ s :=
  mem_insertInto k n s.toList

def ofList (l : List UInt32) : SegmentSet :=
  l.foldl insert empty

def filter (s : SegmentSet) (p : UInt32 → Bool) : SegmentSet :=
  ⟨s.toList.filter p, s.sorted.filter p⟩

@[simp] theorem mem_filter {s : SegmentSet} {p : UInt32 → Bool} {k : UInt32} :
    k ∈ s.filter p ↔ k ∈ s ∧ p k :=
  List.mem_filter

/-- All segments of a table of `n` segments. -/
def below (n : UInt32) : SegmentSet where
  toList := (List.finRange n.toNat).map fun i => UInt32.ofNat i.val
  sorted := by
    rw [List.pairwise_map]
    refine List.Pairwise.imp_of_mem ?_ (List.pairwise_lt_finRange n.toNat)
    intro a b _ _ hab
    have hn := n.toNat_lt
    rw [UInt32.lt_iff_toNat_lt, UInt32.toNat_ofNat', UInt32.toNat_ofNat',
      Nat.mod_eq_of_lt (by omega), Nat.mod_eq_of_lt (by omega)]
    exact hab

end SegmentSet
end GridClient
