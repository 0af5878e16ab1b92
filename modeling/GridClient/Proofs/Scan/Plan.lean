import Mathlib.Data.List.Induction
import GridClient.Proofs.Scan.Tracker
import GridClient.Scan.Plan

/-!
# What a plan covers

The parts of a scan are the groups of its plan and, before them, the group it walks over.
A new plan has every unfinished segment in exactly one part. A part that stands for the
whole cache is planned only while nobody knows which segments there are.
-/

namespace GridClient
namespace Scan

/-- Whether a segment belongs to a group; without a set of segments every one does. -/
def covers (group : Option SegmentSet) (n : UInt32) : Bool :=
  group.all fun segments => segments.contains n

/-- The parts of the cache that the scan walks over or is to walk over. -/
def parts (s : Scan) : List (Option SegmentSet) :=
  s.active.toList.map ActiveIteration.segments ++ s.plan.map ScanGroup.segments

/-- How many parts a segment belongs to. -/
def holders (s : Scan) (n : UInt32) : Nat :=
  s.parts.countP fun part => covers part n

/-- The segment belongs to a part of the scan. -/
def Covers (s : Scan) (n : UInt32) : Prop :=
  ∃ part ∈ s.parts, covers part n = true

/-- The segment is known to be requested and has not been completed. -/
def Unfinished (s : Scan) (n : UInt32) : Prop :=
  ∃ segments, s.remaining = some segments ∧ n ∈ segments

theorem covers_iff_holders_pos {s : Scan} {n : UInt32} : s.Covers n ↔ 0 < s.holders n :=
  List.countP_pos_iff.symm

theorem not_isComplete_iff {t : Tracker} {n : UInt32} :
    (!t.isComplete n) = true ↔ n ∉ t.completed := by
  rw [Tracker.isComplete, Bool.not_eq_true', Bool.eq_false_iff, Ne, SegmentSet.contains_iff]

theorem unfinished_iff {s : Scan} {n : UInt32} :
    s.Unfinished n ↔
      ∃ segments, s.requested = some segments ∧ n ∈ segments ∧ n ∉ s.tracker.completed := by
  unfold Unfinished remaining
  constructor
  · intro hunfinished
    rcases hunfinished with ⟨segments, hsegments, hn⟩
    rcases Option.map_eq_some_iff.1 hsegments with ⟨wanted, hwanted, rfl⟩
    rw [SegmentSet.mem_filter, not_isComplete_iff] at hn
    exact ⟨wanted, hwanted, hn⟩
  · intro hopen
    rcases hopen with ⟨wanted, hwanted, hn, hopen⟩
    refine ⟨_, Option.map_eq_some_iff.2 ⟨wanted, hwanted, rfl⟩, ?_⟩
    rw [SegmentSet.mem_filter, not_isComplete_iff]
    exact ⟨hn, hopen⟩

/-!
# Grouping
-/

def groupsWith (n : UInt32) (groups : Table (Option NodeAddress) SegmentSet) : Nat :=
  groups.countP fun group => group.2.contains n

def assignTo (groups : Table (Option NodeAddress) SegmentSet) (owner : Option NodeAddress)
    (n : UInt32) : Table (Option NodeAddress) SegmentSet :=
  groups.alter owner fun group => (group.getD .empty).insert n

theorem groupsWith_assignTo_of_ne {n m : UInt32} (h : n ≠ m)
    (groups : Table (Option NodeAddress) SegmentSet) (owner : Option NodeAddress) :
    groupsWith n (assignTo groups owner m) = groupsWith n groups := by
  unfold groupsWith assignTo
  induction groups with
  | nil => simp [Table.alter, h]
  | cons group rest ih =>
      unfold Table.alter
      split
      · simp [List.countP_cons, h]
      · rw [List.countP_cons, List.countP_cons, ih]

theorem groupsWith_assignTo_self {n : UInt32} {groups : Table (Option NodeAddress) SegmentSet}
    (h : groupsWith n groups = 0) (owner : Option NodeAddress) :
    groupsWith n (assignTo groups owner n) = 1 := by
  unfold groupsWith assignTo at *
  induction groups with
  | nil => simp [Table.alter]
  | cons group rest ih =>
      rw [List.countP_cons] at h
      unfold Table.alter
      split
      · rw [List.countP_cons, Nat.eq_zero_of_add_eq_zero_right h]
        simp
      · rw [List.countP_cons, ih (Nat.eq_zero_of_add_eq_zero_right h),
          Nat.eq_zero_of_add_eq_zero_left h]

/-- Each segment of a list ends up in exactly one group. -/
theorem groupsWith_assignAll (owner : UInt32 → Option NodeAddress) (n : UInt32)
    {segments : List UInt32} (h : segments.Nodup) :
    groupsWith n (segments.foldl (fun groups m => assignTo groups (owner m) m) []) =
      if n ∈ segments then 1 else 0 := by
  induction segments using List.reverseRecOn with
  | nil => rfl
  | append_singleton segments m ih =>
      rw [List.nodup_append] at h
      rw [List.foldl_append, List.foldl_cons, List.foldl_nil]
      by_cases hn : n = m
      · subst hn
        have hfresh : n ∉ segments := fun hmem => h.2.2 n hmem n List.mem_cons_self rfl
        have hnone := ih h.1
        rw [if_neg hfresh] at hnone
        rw [groupsWith_assignTo_self hnone]
        simp
      · rw [groupsWith_assignTo_of_ne hn, ih h.1]
        simp [hn]

theorem countP_groupByPrimary (m : SegmentMap) (n : UInt32) {segments : List UInt32}
    (h : segments.Nodup) :
    (groupByPrimary m segments).countP (fun g => covers g.segments n) =
      if n ∈ segments then 1 else 0 := by
  rw [← groupsWith_assignAll m.primaryOfSegment n h]
  unfold groupByPrimary groupsWith
  rw [List.countP_map]
  exact (List.mergeSort_perm _ _).countP_eq _

theorem segments_ne_none_of_mem_groupByPrimary {m : SegmentMap} {segments : List UInt32}
    {g : ScanGroup} (h : g ∈ groupByPrimary m segments) : g.segments ≠ none := by
  unfold groupByPrimary at h
  rcases List.mem_map.1 h with ⟨⟨target, group⟩, _, rfl⟩
  exact Option.some_ne_none group

/-!
# New plans
-/

/-- What a scan becomes when a new plan is made: its groups follow the owners of the
segments, or there is at most one group, for any node. -/
inductive Plans (s : Scan) (t : Topology) : Scan → Prop where
  | byOwner (m : SegmentMap) (hmap : t.segments = some m)
      (hcount : s.segmentCount.all (· == m.count) = true) :
      Plans s t
        { s.adopt m.count with
          plan := groupByPrimary m (((s.adopt m.count).remaining.map SegmentSet.toList).getD []) }
  | loose : Plans s t { s with plan := s.looseGroups }

theorem plans_replan (s : Scan) (t : Topology) : Plans s t (s.replan t) := by
  unfold replan
  split
  · next m hmap =>
    split
    · next hcount => exact .byOwner m hmap hcount
    · exact .loose
  · exact .loose

theorem adopt_eq (s : Scan) (count : UInt32) :
    s.adopt count =
      { s with segmentCount := (s.adopt count).segmentCount, tracker := (s.adopt count).tracker } := by
  unfold adopt
  split <;> rfl

theorem segmentCount_adopt (s : Scan) (count : UInt32) :
    ∃ known, (s.adopt count).segmentCount = some known := by
  unfold adopt
  split
  · next known hcount => exact ⟨known, hcount⟩
  · exact ⟨count, rfl⟩

/-- Once the number of segments is known, so are the requested ones. -/
theorem requested_of_segmentCount {s : Scan} {count : UInt32} (h : s.segmentCount = some count) :
    ∃ segments, s.requested = some segments := by
  unfold requested
  split
  · next segments hsegments => exact ⟨segments, rfl⟩
  · exact ⟨.below count, by rw [h]; rfl⟩

namespace Plans

variable {s r : Scan} {t : Topology}

/-- A new plan concerns neither the iteration nor the losses so far. -/
theorem eq (h : Plans s t r) :
    r = { s with segmentCount := r.segmentCount, tracker := r.tracker, plan := r.plan } := by
  cases h with
  | byOwner m hmap hcount =>
      dsimp only
      rw [adopt_eq]
  | loose => rfl

theorem active_eq (h : Plans s t r) : r.active = s.active := by
  rw [h.eq]

theorem cache_eq (h : Plans s t r) : r.cache = s.cache := by
  rw [h.eq]

theorem failures_eq (h : Plans s t r) : r.failures = s.failures := by
  rw [h.eq]

theorem parts_eq (h : Plans s t r) (hidle : s.active = none) :
    r.parts = r.plan.map ScanGroup.segments := by
  simp [parts, h.active_eq, hidle]

theorem holders_eq_one (h : Plans s t r) (hidle : s.active = none) {n : UInt32}
    (hn : r.Unfinished n) : r.holders n = 1 := by
  rcases hn with ⟨segments, hremaining, hn⟩
  unfold holders
  rw [h.parts_eq hidle, List.countP_map]
  cases h with
  | byOwner m hmap hcount =>
      have hadopted : (s.adopt m.count).remaining = some segments := hremaining
      have hcover := countP_groupByPrimary m n segments.nodup_toList
      rw [if_pos (show n ∈ segments.toList from hn)] at hcover
      dsimp only
      rw [hadopted]
      exact hcover
  | loose =>
      have hleft : s.remaining = some segments := hremaining
      have hcontains : segments.contains n = true := SegmentSet.contains_iff.2 hn
      have hsome : segments.isEmpty = false := by
        unfold SegmentSet.isEmpty
        exact List.isEmpty_eq_false_iff_exists_mem.2 ⟨n, hn⟩
      simp [looseGroups, hleft, hsome, covers, hcontains]

theorem plan_of_unknown (h : Plans s t r) (hunknown : r.requested = none) :
    r.plan.map ScanGroup.segments = [none] := by
  cases h with
  | byOwner m hmap hcount =>
      rcases segmentCount_adopt s m.count with ⟨known, hknown⟩
      rcases requested_of_segmentCount hknown with ⟨segments, hsegments⟩
      exact absurd (hunknown.symm.trans hsegments) (by simp)
  | loose =>
      have hleft : s.remaining = none := by
        unfold remaining
        rw [show s.requested = none from hunknown]
        rfl
      simp [looseGroups, hleft]

theorem requested_of_whole (h : Plans s t r) {g : ScanGroup} (hg : g ∈ r.plan)
    (hwhole : g.segments = none) : r.requested = none := by
  cases h with
  | byOwner m hmap hcount => exact absurd hwhole (segments_ne_none_of_mem_groupByPrimary hg)
  | loose =>
      have hg : g ∈ s.looseGroups := hg
      change s.requested = none
      cases hrequested : s.requested with
      | none => rfl
      | some segments =>
          have hleft : s.remaining = some (segments.filter fun n => !s.tracker.isComplete n) := by
            unfold remaining
            rw [hrequested]
            rfl
          unfold looseGroups at hg
          rw [hleft] at hg
          dsimp only at hg
          split at hg
          · cases hg
          · rcases List.mem_singleton.1 hg with rfl
            cases hwhole

end Plans
end Scan
end GridClient
