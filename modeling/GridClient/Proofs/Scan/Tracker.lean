import GridClient.Proofs.SegmentSet
import GridClient.Scan.Tracker

/-!
# What a tracker refuses

A tracker refuses a key that it has accepted before, and any key of a completed segment.
Nothing that happens to a tracker makes it accept a key again that it refuses: neither
the tracking of other keys, nor the completion of a segment, whose keys are forgotten,
nor the filing of loose keys under their segments.
-/

namespace GridClient
namespace Tracker

/-- The tracker does not take a key for new. -/
def Refuses (t : Tracker) (segment : Option UInt32) (key : Bytes) : Prop :=
  (t.track segment key).1 = false

theorem refuses_iff {t : Tracker} {segment : Option UInt32} {key : Bytes} :
    t.Refuses segment key ↔
      (∃ n, segment = some n ∧ n ∈ t.completed) ∨ (segment, key) ∈ t.seen := by
  have hany : segment.any t.isComplete = true ↔ ∃ n, segment = some n ∧ n ∈ t.completed := by
    cases segment <;> simp [isComplete]
  rw [← hany, ← List.contains_iff_mem, ← Bool.or_eq_true]
  unfold Refuses track
  split <;> simp_all

/-!
# Tracking
-/

@[simp] theorem completed_remember (t : Tracker) (segment : Option UInt32) (key : Bytes) :
    (t.remember segment key).completed = t.completed := by
  unfold remember
  split <;> rfl

theorem mem_seen_remember {t : Tracker} {segment : Option UInt32} {key : Bytes}
    {entry : Option UInt32 × Bytes} :
    entry ∈ (t.remember segment key).seen ↔ entry = (segment, key) ∨ entry ∈ t.seen := by
  unfold remember
  split
  · next h =>
    constructor
    · exact Or.inr
    · intro hentry
      rcases hentry with rfl | h'
      · exact List.contains_iff_mem.1 h
      · exact h'
  · exact List.mem_cons

theorem track_of_refuses {t : Tracker} {segment : Option UInt32} {key : Bytes}
    (h : t.Refuses segment key) : t.track segment key = (false, t) := by
  unfold Refuses at h
  unfold track at h ⊢
  split at h
  · next hif => rw [if_pos hif]
  · cases h

theorem track_of_not_refuses {t : Tracker} {segment : Option UInt32} {key : Bytes}
    (h : ¬ t.Refuses segment key) : t.track segment key = (true, t.remember segment key) := by
  unfold Refuses at h
  unfold track at h ⊢
  split at h
  · exact absurd rfl h
  · next hif => rw [if_neg hif]

theorem refuses_remember (t : Tracker) (segment : Option UInt32) (key : Bytes) :
    (t.remember segment key).Refuses segment key :=
  refuses_iff.2 (Or.inr (mem_seen_remember.2 (Or.inl rfl)))

theorem Refuses.remember {t : Tracker} {segment : Option UInt32} {key : Bytes}
    (h : t.Refuses segment key) (other : Option UInt32) (otherKey : Bytes) :
    (t.remember other otherKey).Refuses segment key := by
  rcases refuses_iff.1 h with ⟨n, hn, hcomplete⟩ | hseen
  · exact refuses_iff.2 (Or.inl ⟨n, hn, by simpa using hcomplete⟩)
  · exact refuses_iff.2 (Or.inr (mem_seen_remember.2 (Or.inr hseen)))

theorem refuses_remember_iff {t : Tracker} {segment other : Option UInt32}
    {key otherKey : Bytes} :
    (t.remember other otherKey).Refuses segment key ↔
      (segment, key) = (other, otherKey) ∨ t.Refuses segment key := by
  rw [refuses_iff, refuses_iff, completed_remember, mem_seen_remember]
  exact or_left_comm

theorem refuses_of_remember {t : Tracker} {segment other : Option UInt32} {key otherKey : Bytes}
    (h : (t.remember other otherKey).Refuses segment key) :
    key = otherKey ∨ t.Refuses segment key := by
  rcases refuses_iff.1 h with ⟨n, hn, hcomplete⟩ | hseen
  · rw [completed_remember] at hcomplete
    exact Or.inr (refuses_iff.2 (Or.inl ⟨n, hn, hcomplete⟩))
  · rcases mem_seen_remember.1 hseen with hsame | hold
    · exact Or.inl (Prod.mk.inj hsame).2
    · exact Or.inr (refuses_iff.2 (Or.inr hold))

/-!
# Completion
-/

@[simp] theorem mem_completed_complete {t : Tracker} {n m : UInt32} :
    m ∈ (t.complete n).completed ↔ m = n ∨ m ∈ t.completed :=
  SegmentSet.mem_insert

theorem Refuses.complete {t : Tracker} {segment : Option UInt32} {key : Bytes}
    (h : t.Refuses segment key) (n : UInt32) : (t.complete n).Refuses segment key := by
  rcases refuses_iff.1 h with ⟨m, hm, hcomplete⟩ | hseen
  · exact refuses_iff.2 (Or.inl ⟨m, hm, mem_completed_complete.2 (Or.inr hcomplete)⟩)
  · by_cases hn : segment = some n
    · exact refuses_iff.2 (Or.inl ⟨n, hn, mem_completed_complete.2 (Or.inl rfl)⟩)
    · refine refuses_iff.2 (Or.inr (List.mem_filter.2 ⟨hseen, ?_⟩))
      simpa using hn

theorem mem_seen_complete {t : Tracker} {n : UInt32} {entry : Option UInt32 × Bytes} :
    entry ∈ (t.complete n).seen ↔ entry ∈ t.seen ∧ entry.1 ≠ some n := by
  unfold complete
  simp

theorem refuses_complete_iff {t : Tracker} {n : UInt32} {segment : Option UInt32} {key : Bytes} :
    (t.complete n).Refuses segment key ↔ segment = some n ∨ t.Refuses segment key := by
  constructor
  · intro h
    rcases refuses_iff.1 h with ⟨m, rfl, hcomplete⟩ | hseen
    · rcases mem_completed_complete.1 hcomplete with rfl | hold
      · exact Or.inl rfl
      · exact Or.inr (refuses_iff.2 (Or.inl ⟨m, rfl, hold⟩))
    · exact Or.inr (refuses_iff.2 (Or.inr (mem_seen_complete.1 hseen).1))
  · rintro (rfl | h)
    · exact refuses_iff.2 (Or.inl ⟨n, rfl, mem_completed_complete.2 (Or.inl rfl)⟩)
    · exact h.complete n

theorem Refuses.completeAll {t : Tracker} {segment : Option UInt32} {key : Bytes}
    (h : t.Refuses segment key) (segments : List UInt32) :
    (segments.foldl Tracker.complete t).Refuses segment key := by
  induction segments generalizing t with
  | nil => exact h
  | cons n rest ih => exact ih (h.complete n)

theorem mem_completed_completeAll {t : Tracker} {segments : List UInt32} {m : UInt32} :
    m ∈ (segments.foldl complete t).completed ↔ m ∈ segments ∨ m ∈ t.completed := by
  induction segments generalizing t with
  | nil => simp
  | cons n rest ih => simp [ih, or_left_comm, or_assoc]

theorem seen_completeAll_subset {t : Tracker} {segments : List UInt32} :
    (segments.foldl complete t).seen ⊆ t.seen := by
  induction segments generalizing t with
  | nil => exact List.Subset.refl _
  | cons n rest ih => exact List.Subset.trans ih List.filter_sublist.subset

/-!
# Filing
-/

@[simp] theorem completed_file (count : UInt32) (t : Tracker) (key : Bytes) :
    (file count t key).completed = t.completed := by
  unfold file
  dsimp only
  split
  · rfl
  · exact completed_remember t _ key

theorem refuses_file (count : UInt32) (t : Tracker) (key : Bytes) :
    (file count t key).Refuses (some (Hash.segmentOf key count)) key := by
  unfold file
  dsimp only
  split
  · next h => exact refuses_iff.2 (Or.inl ⟨_, rfl, by simpa [isComplete] using h⟩)
  · exact refuses_remember t _ key

theorem Refuses.file {t : Tracker} {segment : Option UInt32} {key : Bytes}
    (h : t.Refuses segment key) (count : UInt32) (other : Bytes) :
    (Tracker.file count t other).Refuses segment key := by
  unfold Tracker.file
  dsimp only
  split
  · exact h
  · exact h.remember _ other

theorem Refuses.fileAll {t : Tracker} {segment : Option UInt32} {key : Bytes}
    (h : t.Refuses segment key) (count : UInt32) (keys : List Bytes) :
    (keys.foldl (Tracker.file count) t).Refuses segment key := by
  induction keys generalizing t with
  | nil => exact h
  | cons other rest ih => exact ih (h.file count other)

theorem refuses_fileAll {count : UInt32} {key : Bytes} {keys : List Bytes} (hkey : key ∈ keys)
    (t : Tracker) :
    (keys.foldl (file count) t).Refuses (some (Hash.segmentOf key count)) key := by
  induction keys generalizing t with
  | nil => cases hkey
  | cons other rest ih =>
      rcases List.mem_cons.1 hkey with rfl | hkey
      · exact (refuses_file count t key).fileAll count rest
      · exact ih hkey _

/-- A key that was refused without a segment is refused under its own. -/
theorem Refuses.assign {t : Tracker} {key : Bytes} (h : t.Refuses none key) (count : UInt32) :
    (t.assign count).Refuses (some (Hash.segmentOf key count)) key := by
  have hseen : (none, key) ∈ t.seen := by
    rcases refuses_iff.1 h with ⟨n, hn, _⟩ | hseen
    · cases hn
    · exact hseen
  unfold Tracker.assign
  rw [List.partition_eq_filter_filter]
  refine refuses_fileAll (List.mem_map.2 ⟨(none, key), ?_, rfl⟩) _
  exact List.mem_filter.2 ⟨hseen, rfl⟩

@[simp] theorem completed_fileAll (count : UInt32) (keys : List Bytes) (t : Tracker) :
    (keys.foldl (file count) t).completed = t.completed := by
  induction keys generalizing t with
  | nil => rfl
  | cons key rest ih => rw [List.foldl_cons, ih, completed_file]

@[simp] theorem completed_assign (t : Tracker) (count : UInt32) :
    (t.assign count).completed = t.completed := by
  unfold assign
  rw [List.partition_eq_filter_filter]
  exact completed_fileAll count _ _

theorem seen_fileAll {count : UInt32} {keys : List Bytes} {t : Tracker}
    {entry : Option UInt32 × Bytes} (h : entry ∈ (keys.foldl (file count) t).seen) :
    entry.2 ∈ keys ∨ entry ∈ t.seen := by
  induction keys generalizing t with
  | nil => exact Or.inr h
  | cons key rest ih =>
      rcases ih h with hrest | hfile
      · exact Or.inl (List.mem_cons_of_mem _ hrest)
      · unfold file at hfile
        dsimp only at hfile
        split at hfile
        · exact Or.inr hfile
        · rcases mem_seen_remember.1 hfile with rfl | hseen
          · exact Or.inl List.mem_cons_self
          · exact Or.inr hseen

theorem seen_assign {t : Tracker} {count : UInt32} {entry : Option UInt32 × Bytes}
    (h : entry ∈ (t.assign count).seen) : ∃ segment, (segment, entry.2) ∈ t.seen := by
  unfold assign at h
  rw [List.partition_eq_filter_filter] at h
  rcases seen_fileAll h with hkey | hseen
  · rcases List.mem_map.1 hkey with ⟨loose, hloose, hsame⟩
    rw [← hsame]
    exact ⟨loose.1, (List.mem_filter.1 hloose).1⟩
  · exact ⟨entry.1, (List.mem_filter.1 hseen).1⟩

theorem mem_seen_file {count : UInt32} {t : Tracker} {key : Bytes}
    {entry : Option UInt32 × Bytes} :
    entry ∈ (file count t key).seen ↔
      entry ∈ t.seen ∨ Hash.segmentOf key count ∉ t.completed ∧
        entry = (some (Hash.segmentOf key count), key) := by
  unfold file
  dsimp only
  split
  · next h =>
    have hcomplete : Hash.segmentOf key count ∈ t.completed := SegmentSet.contains_iff.1 h
    simp [hcomplete]
  · next h =>
    have hopen : Hash.segmentOf key count ∉ t.completed :=
      fun hmem => h (SegmentSet.contains_iff.2 hmem)
    rw [mem_seen_remember, or_comm, and_iff_right hopen]

theorem mem_seen_fileAll {count : UInt32} {keys : List Bytes} {t : Tracker}
    {entry : Option UInt32 × Bytes} :
    entry ∈ (keys.foldl (file count) t).seen ↔
      entry ∈ t.seen ∨ ∃ key ∈ keys, Hash.segmentOf key count ∉ t.completed ∧
        entry = (some (Hash.segmentOf key count), key) := by
  induction keys generalizing t with
  | nil => simp
  | cons key rest ih =>
      rw [List.foldl_cons, ih, mem_seen_file, completed_file]
      simp only [List.mem_cons, exists_eq_or_imp, or_assoc]

/-- What is filed stays; of the loose keys those go under their segments whose segments are
not complete. -/
theorem mem_seen_assign {t : Tracker} {count : UInt32} {entry : Option UInt32 × Bytes} :
    entry ∈ (t.assign count).seen ↔
      (entry ∈ t.seen ∧ entry.1 ≠ none) ∨
        (none, entry.2) ∈ t.seen ∧ Hash.segmentOf entry.2 count ∉ t.completed ∧
          entry.1 = some (Hash.segmentOf entry.2 count) := by
  unfold assign
  rw [List.partition_eq_filter_filter]
  dsimp only
  rw [mem_seen_fileAll]
  refine or_congr ?_ ?_
  · simp [Option.isSome_iff_ne_none]
  · constructor
    · rintro ⟨key, hkey, hopen, rfl⟩
      rcases List.mem_map.1 hkey with ⟨⟨segment, key⟩, hloose, rfl⟩
      rcases List.mem_filter.1 hloose with ⟨hseen, hnone⟩
      cases Option.isNone_iff_eq_none.1 hnone
      exact ⟨hseen, hopen, rfl⟩
    · rintro ⟨hseen, hopen, hsegment⟩
      refine ⟨entry.2, List.mem_map.2 ⟨(none, entry.2), ?_, rfl⟩, hopen, ?_⟩
      · exact List.mem_filter.2 ⟨hseen, rfl⟩
      · exact Prod.ext hsegment rfl

/-- Once the keys are filed, a key is refused under its segment that was refused there before,
or without a segment. -/
theorem refuses_assign_iff {t : Tracker} {count : UInt32} {key : Bytes} :
    (t.assign count).Refuses (some (Hash.segmentOf key count)) key ↔
      t.Refuses (some (Hash.segmentOf key count)) key ∨ t.Refuses none key := by
  constructor
  · intro h
    rcases refuses_iff.1 h with ⟨n, hn, hcomplete⟩ | hseen
    · rw [completed_assign] at hcomplete
      exact Or.inl (refuses_iff.2 (Or.inl ⟨n, hn, hcomplete⟩))
    · rcases mem_seen_assign.1 hseen with ⟨hfiled, _⟩ | ⟨hloose, _⟩
      · exact Or.inl (refuses_iff.2 (Or.inr hfiled))
      · exact Or.inr (refuses_iff.2 (Or.inr hloose))
  · rintro (h | h)
    · rcases refuses_iff.1 h with ⟨n, hn, hcomplete⟩ | hseen
      · refine refuses_iff.2 (Or.inl ⟨n, hn, ?_⟩)
        rw [completed_assign]
        exact hcomplete
      · exact refuses_iff.2 (Or.inr (mem_seen_assign.2 (Or.inl ⟨hseen, by simp⟩)))
    · exact h.assign count

end Tracker
end GridClient
