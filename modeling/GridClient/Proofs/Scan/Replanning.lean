import GridClient.Proofs.Scan.Life
import GridClient.Proofs.Scan.Plan
import GridClient.Proofs.Scan.Played

/-!
# What a new plan looks like

A new plan divides the segments that are left. With a segment map of the scan's number of
segments there is one group for each primary owner of an unfinished segment, and the group
has all of the owner's unfinished segments. Without such a map there is one group for any
node, unless nothing is left. The number of segments is adopted from the first segment map
that a plan is made with, and kept from then on.
-/

namespace GridClient
namespace Scan

/-!
# Groups of owners
-/

/-- Every owner of a segment has a set, and it is the set of its segments. -/
structure Grouped (owner : UInt32 → Option NodeAddress) (segments : List UInt32)
    (groups : Table (Option NodeAddress) SegmentSet) : Prop where
  keys : groups.keys.Nodup
  members : ∀ o n, n ∈ (groups.get? o).getD .empty ↔ n ∈ segments ∧ owner n = o
  nonempty : ∀ o set, groups.get? o = some set → ∃ n, n ∈ set

theorem Grouped.assign {owner : UInt32 → Option NodeAddress} {segments : List UInt32}
    {groups : Table (Option NodeAddress) SegmentSet} (h : Grouped owner segments groups)
    (m : UInt32) : Grouped owner (segments ++ [m]) (assignTo groups (owner m) m) := by
  unfold assignTo
  constructor
  case keys => exact Table.nodup_keys_alter h.keys _ _
  case members =>
    intro o n
    rw [List.mem_append, List.mem_singleton]
    by_cases ho : o = owner m
    · subst ho
      rw [Table.get?_alter_self, Option.getD_some, SegmentSet.mem_insert, h.members]
      constructor
      · rintro (rfl | ⟨hn, howner⟩)
        · exact ⟨Or.inr rfl, rfl⟩
        · exact ⟨Or.inl hn, howner⟩
      · rintro ⟨hn | rfl, howner⟩
        · exact Or.inr ⟨hn, howner⟩
        · exact Or.inl rfl
    · rw [Table.get?_alter_of_ne _ _ ho, h.members]
      constructor
      · rintro ⟨hn, howner⟩
        exact ⟨Or.inl hn, howner⟩
      · rintro ⟨hn | rfl, howner⟩
        · exact ⟨hn, howner⟩
        · exact absurd howner.symm ho
  case nonempty =>
    intro o set hset
    by_cases ho : o = owner m
    · subst ho
      rw [Table.get?_alter_self] at hset
      cases hset
      exact ⟨m, SegmentSet.mem_insert.2 (Or.inl rfl)⟩
    · rw [Table.get?_alter_of_ne _ _ ho] at hset
      exact h.nonempty o set hset

def assignAll (owner : UInt32 → Option NodeAddress) (segments : List UInt32) :
    Table (Option NodeAddress) SegmentSet :=
  segments.foldl (fun groups n => assignTo groups (owner n) n) []

theorem grouped_assignAll (owner : UInt32 → Option NodeAddress) (segments : List UInt32) :
    Grouped owner segments (assignAll owner segments) := by
  unfold assignAll
  induction segments using List.reverseRecOn with
  | nil =>
      constructor
      case keys => exact List.nodup_nil
      case members => simp
      case nonempty =>
        intro o set hset
        cases hset
  | append_singleton segments m ih =>
      rw [List.foldl_append, List.foldl_cons, List.foldl_nil]
      exact ih.assign m

section Groups

variable {m : SegmentMap} {segments : List UInt32} {g : ScanGroup}

theorem mem_groupByPrimary :
    g ∈ groupByPrimary m segments ↔ ∃ set, g.segments = some set ∧
      (assignAll m.primaryOfSegment segments).get? g.target = some set := by
  have hkeys := (grouped_assignAll m.primaryOfSegment segments).keys
  unfold groupByPrimary
  rw [List.mem_map]
  constructor
  · rintro ⟨⟨target, set⟩, hmem, rfl⟩
    rw [(List.mergeSort_perm _ _).mem_iff] at hmem
    exact ⟨set, rfl, (Table.get?_eq_some_iff hkeys).2 hmem⟩
  · rintro ⟨set, hset, hget⟩
    refine ⟨(g.target, set), ?_, ?_⟩
    · rw [(List.mergeSort_perm _ _).mem_iff]
      exact (Table.get?_eq_some_iff hkeys).1 hget
    · rcases g with ⟨target, group⟩
      cases hset
      rfl

/-- A group has the segments of its target, and there are some. -/
theorem segments_of_mem_groupByPrimary (hg : g ∈ groupByPrimary m segments) :
    ∃ set, g.segments = some set ∧ (∃ n, n ∈ set) ∧
      ∀ n, n ∈ set ↔ n ∈ segments ∧ m.primaryOfSegment n = g.target := by
  have hgrouped := grouped_assignAll m.primaryOfSegment segments
  rcases mem_groupByPrimary.1 hg with ⟨set, hset, hget⟩
  refine ⟨set, hset, hgrouped.nonempty _ _ hget, fun n => ?_⟩
  have hmembers := hgrouped.members g.target n
  rw [hget, Option.getD_some] at hmembers
  exact hmembers

theorem exists_mem_groupByPrimary {n : UInt32} (hn : n ∈ segments) :
    ∃ set, n ∈ set ∧ ⟨m.primaryOfSegment n, some set⟩ ∈ groupByPrimary m segments := by
  have hmembers := ((grouped_assignAll m.primaryOfSegment segments).members _ n).2 ⟨hn, rfl⟩
  cases hget : (assignAll m.primaryOfSegment segments).get? (m.primaryOfSegment n) with
  | none =>
      rw [hget] at hmembers
      cases hmembers
  | some set =>
      rw [hget] at hmembers
      exact ⟨set, hmembers, mem_groupByPrimary.2 ⟨set, rfl, hget⟩⟩

theorem nodup_targets_groupByPrimary (m : SegmentMap) (segments : List UInt32) :
    ((groupByPrimary m segments).map ScanGroup.target).Nodup := by
  unfold groupByPrimary
  rw [List.map_map]
  exact (((List.mergeSort_perm _ _).map Prod.fst).nodup_iff).2
    (grouped_assignAll m.primaryOfSegment segments).keys

end Groups

/-!
# New plans
-/

/-- No segment is named by both groups. -/
def ScanGroup.Apart (g h : ScanGroup) : Prop :=
  ∀ a b, g.segments = some a → h.segments = some b → ∀ n ∈ a, n ∉ b

/-- The groups that name segments divide the unfinished ones. -/
structure Divides (r : Scan) : Prop where
  nonempty : ∀ g ∈ r.plan, ∀ set, g.segments = some set → ∃ n, n ∈ set
  apart : r.plan.Pairwise ScanGroup.Apart
  union : ∀ n, (∃ g ∈ r.plan, ∃ set, g.segments = some set ∧ n ∈ set) ↔ r.Unfinished n

/-- The groups follow the primary owners. -/
structure ByOwner (m : SegmentMap) (r : Scan) : Prop where
  targets : (r.plan.map ScanGroup.target).Nodup
  named : ∀ g ∈ r.plan, g.segments ≠ none
  owned : ∀ n, r.Unfinished n →
    ∃ set, n ∈ set ∧ ⟨m.primaryOfSegment n, some set⟩ ∈ r.plan
  adopted : r.segmentCount = some m.count

/-- There is no group, or one for any node. -/
structure Loose (r : Scan) : Prop where
  atMostOne : r.plan.length ≤ 1
  anyNode : ∀ g ∈ r.plan, g.target = none
  whole : (∃ g ∈ r.plan, g.segments = none) ↔ r.remaining = none

section Regimes

variable {r : Scan}

theorem divides_of_byOwner {m : SegmentMap} {left : SegmentSet} (hleft : r.remaining = some left)
    (hplan : r.plan = groupByPrimary m left.toList) : Divides r := by
  constructor
  case nonempty =>
    intro g hg set hset
    rw [hplan] at hg
    rcases segments_of_mem_groupByPrimary hg with ⟨own, hown, hsome, _⟩
    cases hown.symm.trans hset
    exact hsome
  case apart =>
    have htargets := nodup_targets_groupByPrimary m left.toList
    rw [hplan]
    refine (List.pairwise_map.1 htargets).imp_of_mem ?_
    intro g h hg hh hne a b ha hb n hna hnb
    rcases segments_of_mem_groupByPrimary hg with ⟨own, hown, -, hmembers⟩
    rcases segments_of_mem_groupByPrimary hh with ⟨other, hother, -, hothers⟩
    cases hown.symm.trans ha
    cases hother.symm.trans hb
    exact hne (((hmembers n).1 hna).2.symm.trans ((hothers n).1 hnb).2)
  case union =>
    intro n
    rw [hplan]
    constructor
    · rintro ⟨g, hg, set, hset, hn⟩
      rcases segments_of_mem_groupByPrimary hg with ⟨own, hown, -, hmembers⟩
      cases hown.symm.trans hset
      exact ⟨left, hleft, ((hmembers n).1 hn).1⟩
    · rintro ⟨segments, hsegments, hn⟩
      cases hleft.symm.trans hsegments
      have hgroup : n ∈ left.toList := hn
      rcases exists_mem_groupByPrimary (m := m) hgroup with ⟨set, hset, hg⟩
      exact ⟨_, hg, set, rfl, hset⟩

theorem byOwner_of_plan {m : SegmentMap} {left : SegmentSet} (hleft : r.remaining = some left)
    (hplan : r.plan = groupByPrimary m left.toList) (hcount : r.segmentCount = some m.count) :
    ByOwner m r := by
  constructor
  case targets =>
    rw [hplan]
    exact nodup_targets_groupByPrimary m left.toList
  case named =>
    intro g hg
    rw [hplan] at hg
    exact segments_ne_none_of_mem_groupByPrimary hg
  case owned =>
    rintro n ⟨segments, hsegments, hn⟩
    cases hleft.symm.trans hsegments
    rw [hplan]
    exact exists_mem_groupByPrimary hn
  case adopted => exact hcount

theorem looseGroups_of_remaining {left : SegmentSet} (hleft : r.remaining = some left) :
    r.looseGroups =
      if left.isEmpty then [] else [{ target := none, segments := some left }] := by
  unfold looseGroups
  rw [hleft]

theorem looseGroups_of_unknown (hleft : r.remaining = none) :
    r.looseGroups = [{ target := none, segments := none }] := by
  unfold looseGroups
  rw [hleft]

theorem divides_of_loose (hplan : r.plan = r.looseGroups) : Divides r := by
  cases hleft : r.remaining with
  | none =>
      rw [looseGroups_of_unknown hleft] at hplan
      constructor <;> simp [hplan, Unfinished, hleft]
  | some left =>
      rw [looseGroups_of_remaining hleft] at hplan
      have hmember := SegmentSet.isEmpty_eq_false_iff (s := left)
      by_cases hempty : left.isEmpty = true
      · have hnone : ∀ n, n ∉ left := by simpa [hempty] using hmember
        rw [if_pos hempty] at hplan
        constructor <;> simp [hplan, Unfinished, hleft, hnone]
      · have hsome : ∃ n, n ∈ left := by simpa [hempty] using hmember
        rw [if_neg hempty] at hplan
        constructor <;> simp [hplan, Unfinished, hleft, hsome]

theorem loose_of_plan (hplan : r.plan = r.looseGroups) : Loose r := by
  cases hleft : r.remaining with
  | none =>
      rw [looseGroups_of_unknown hleft] at hplan
      constructor <;> simp [hplan, hleft]
  | some left =>
      rw [looseGroups_of_remaining hleft] at hplan
      by_cases hempty : left.isEmpty = true
      · rw [if_pos hempty] at hplan
        constructor <;> simp [hplan, hleft]
      · rw [if_neg hempty] at hplan
        constructor <;> simp [hplan, hleft]

end Regimes

/-!
# The number of segments
-/

/-- The number of segments stays what it is, once it is known. -/
def KeepsCount (s t : Scan) : Prop :=
  ∀ count, s.segmentCount = some count → t.segmentCount = some count

theorem KeepsCount.of_eq {s t : Scan} (h : t.segmentCount = s.segmentCount) : KeepsCount s t :=
  fun _ hcount => h.trans hcount

theorem KeepsCount.trans {s t u : Scan} (hst : KeepsCount s t) (htu : KeepsCount t u) :
    KeepsCount s u :=
  fun count hcount => htu count (hst count hcount)

theorem segmentCount_adopt_of_known {s : Scan} {count : UInt32} (h : s.segmentCount = some count)
    (other : UInt32) : (s.adopt other).segmentCount = some count := by
  unfold adopt
  rw [h]
  exact h

theorem segmentCount_adopt_of_match {s : Scan} {count : UInt32}
    (h : s.segmentCount = none ∨ s.segmentCount = some count) :
    (s.adopt count).segmentCount = some count := by
  rcases h with h | h
  · unfold adopt
    rw [h]
  · exact segmentCount_adopt_of_known h count

theorem keepsCount_replan (s : Scan) (t : Topology) : KeepsCount s (s.replan t) := by
  intro count hcount
  have hplans := plans_replan s t
  generalize s.replan t = r at hplans ⊢
  cases hplans with
  | byOwner m hmap hmatch => exact segmentCount_adopt_of_known hcount m.count
  | loose => exact hcount

theorem keepsCount_drained (s : Scan) (a : ActiveIteration) (page : Page) :
    KeepsCount s (s.drained a page) := by
  apply KeepsCount.of_eq
  rw [drained_eq]
  rfl

theorem keepsCount_paged (s : Scan) (a : ActiveIteration) (page : Page) :
    KeepsCount s (s.paged a page).scan := by
  apply KeepsCount.of_eq
  rw [scan_paged]
  rfl

theorem Pulls.keepsCount {s : Scan} {a : ActiveIteration} {trace : Trace} {stand : Stand Turn}
    (h : Pulls s a trace stand) : KeepsCount s (s.leaves trace stand) := by
  have hreplan (v : Topology) : KeepsCount s (s.interrupted.idle.replan v) :=
    (KeepsCount.of_eq rfl).trans (keepsCount_replan s.interrupted.idle v)
  cases h with
  | asking t time => exact .of_eq rfl
  | page hpage => exact keepsCount_paged s a _
  | @drained t time page trace stand hpage hend =>
      cases stand with
      | done r => exact keepsCount_drained s a page
      | waiting q =>
          rw [Program.Stand.map_waiting, leaves_waiting]
          simp only [afterNotes_append, afterNotes_note, afterNotes_of_serves hend.serves]
          exact keepsCount_drained s a page
  | changedTooOften hlimit => exact .of_eq rfl
  | leaving hlimit hend =>
      rw [leaves_waiting]
      simp only [afterNotes_append, afterNotes_note, afterNotes_of_serves hend.serves]
      exact .of_eq rfl
  | changed hlimit hend => exact hreplan _
  | lostTooOften hlimit => exact .of_eq rfl
  | refreshing hlimit hping =>
      have hvain := Call.vain_of_reaches_refresh .iterationNext (by decide) hping
      rw [leaves_waiting]
      simp only [afterNotes_append, afterNotes_note, afterNotes_now,
        afterNotes_of_serves fun e he => (hvain.1 e he).serves]
      exact .of_eq rfl
  | lost hlimit hping => exact hreplan _
  | @failed t time e trace stand hend =>
      cases stand with
      | done r => exact .of_eq rfl
      | waiting q =>
          rw [Program.Stand.map_waiting, leaves_waiting]
          simp only [afterNotes_append, afterNotes_note, afterNotes_of_serves hend.serves]
          exact .of_eq rfl

theorem Proceeds.keepsCount {s : Scan} {trace : Trace} {stand : Stand Turn}
    (h : Proceeds s trace stand) : KeepsCount s (s.leaves trace stand) := by
  cases h with
  | pulls ha h => exact h.keepsCount
  | exhausted ha hplan => exact .of_eq rfl
  | starting ha hplan hstart =>
      rw [leaves_waiting, afterNotes_note, afterNotes_of_serves hstart.serves]
      exact .of_eq rfl
  | refused ha hplan hstart => exact .of_eq rfl
  | @started g rest trace last stand cursor ha hplan hstart h =>
      have hleaves := h.leaves_append s (⟨.note (s.planning rest), ()⟩ :: trace)
      rw [List.cons_append] at hleaves
      rw [hleaves]
      exact (KeepsCount.of_eq rfl).trans h.keepsCount

theorem Takes.keepsCount {s : Scan} {trace : Trace} {stand : Stand Turn} (h : Takes s trace stand) :
    KeepsCount s (s.leaves trace stand) := by
  cases h with
  | ended hstate => exact .of_eq rfl
  | running hstate h => exact h.keepsCount
  | @first t trace stand hstate h =>
      have hleaves := h.leaves_append s [⟨.topology s.cache.key, t⟩]
      rw [List.singleton_append] at hleaves
      rw [hleaves]
      refine KeepsCount.trans ?_ h.keepsCount
      exact (keepsCount_replan s t).trans (.of_eq rfl)

theorem keepsCount_of_lives {start s : Scan} {history : List Called} (h : Lives start history s) :
    KeepsCount start s := by
  refine h.preserves (fun _ s => KeepsCount start s) (fun _ _ s => KeepsCount start s)
    ?_ ?_ ?_ ?_ ?_
  · exact .of_eq rfl
  · intro history s hlife hs
    exact hs
  · intro history trace s last t hs hturn
    exact hs.trans hturn.keepsCount
  · intro history trace s last r t hs hturn
    exact hs.trans hturn.keepsCount
  · intro history trace s last q hs hturn
    exact hs.trans hturn.keepsCount

/-!
# Replanning
-/

/-- What the plan of a scan is under a topology, and what becomes of its number of segments
during the rest of its life. -/
structure Replanned (s : Scan) (t : Topology) (r : Scan) : Prop where
  divides : Divides r
  byOwner : ∀ m, t.segments = some m →
    s.segmentCount = none ∨ s.segmentCount = some m.count → ByOwner m r
  loose : (∀ m, t.segments = some m → ∃ count, s.segmentCount = some count ∧ count ≠ m.count) →
    Loose r
  keeps : KeepsCount s r
  keepsOn : ∀ history u, Lives r history u → KeepsCount r u

section Matching

variable {s : Scan} {t : Topology}

theorem matches_iff {count : UInt32} :
    s.segmentCount.all (· == count) = true ↔
      s.segmentCount = none ∨ s.segmentCount = some count := by
  cases s.segmentCount <;> simp

theorem replan_of_match {m : SegmentMap} (hmap : t.segments = some m)
    (hcount : s.segmentCount = none ∨ s.segmentCount = some m.count) :
    s.replan t = { s.adopt m.count with
      plan := groupByPrimary m (((s.adopt m.count).remaining.map SegmentSet.toList).getD []) } := by
  unfold replan
  rw [hmap]
  dsimp only
  rw [if_pos (matches_iff.2 hcount)]

theorem replan_of_mismatch
    (h : ∀ m, t.segments = some m → ∃ count, s.segmentCount = some count ∧ count ≠ m.count) :
    s.replan t = { s with plan := s.looseGroups } := by
  unfold replan
  split
  · next m hmap =>
    rcases h m hmap with ⟨count, hcount, hne⟩
    rw [if_neg]
    rw [matches_iff, hcount]
    simpa using hne
  · rfl

theorem remaining_of_segmentCount {count : UInt32} (h : s.segmentCount = some count) :
    ∃ left, s.remaining = some left := by
  rcases requested_of_segmentCount h with ⟨segments, hsegments⟩
  unfold remaining
  rw [hsegments]
  exact ⟨_, rfl⟩

/-- With a map of the scan's number of segments, the number is known and the plan groups what
is left by the map. -/
theorem replanned_of_match {m : SegmentMap} (hmap : t.segments = some m)
    (hcount : s.segmentCount = none ∨ s.segmentCount = some m.count) :
    Divides (s.replan t) ∧ ByOwner m (s.replan t) := by
  have hadopted := segmentCount_adopt_of_match hcount
  rcases remaining_of_segmentCount hadopted with ⟨left, hleft⟩
  rw [replan_of_match hmap hcount, hleft]
  exact ⟨divides_of_byOwner hleft rfl, byOwner_of_plan hleft rfl hadopted⟩

theorem replanned_of_mismatch
    (h : ∀ m, t.segments = some m → ∃ count, s.segmentCount = some count ∧ count ≠ m.count) :
    Divides (s.replan t) ∧ Loose (s.replan t) := by
  rw [replan_of_mismatch h]
  exact ⟨divides_of_loose rfl, loose_of_plan rfl⟩

end Matching

/-- A new plan divides the unfinished segments, by their primary owners if the topology tells
them; and the number of segments is adopted once. -/
theorem replanned_replan (s : Scan) (t : Topology) : Replanned s t (s.replan t) := by
  constructor
  case divides =>
    by_cases hmatch : ∃ m, t.segments = some m ∧
        (s.segmentCount = none ∨ s.segmentCount = some m.count)
    · rcases hmatch with ⟨m, hmap, hcount⟩
      exact (replanned_of_match hmap hcount).1
    · refine (replanned_of_mismatch fun m hmap => ?_).1
      have hother : ¬ (s.segmentCount = none ∨ s.segmentCount = some m.count) :=
        fun hcount => hmatch ⟨m, hmap, hcount⟩
      rcases Option.ne_none_iff_exists'.1 (mt Or.inl hother) with ⟨count, hcount⟩
      refine ⟨count, hcount, ?_⟩
      rintro rfl
      exact hother (Or.inr hcount)
  case byOwner => exact fun m hmap hcount => (replanned_of_match hmap hcount).2
  case loose => exact fun h => (replanned_of_mismatch h).2
  case keeps => exact keepsCount_replan s t
  case keepsOn => exact fun history u hlife => keepsCount_of_lives hlife

def otherNode : NodeAddress :=
  { loneNode with host := "b" }

/-- Five segments: the first and the last belong to one node, the second to another, and
nobody owns the other two. -/
def patchyMap : SegmentMap :=
  ⟨[[loneNode], [otherNode], [], [], [loneNode]], by simp⟩

def patchyTopology : Topology where
  epoch := 1
  intelligence := .hashDistributionAware
  servers := [loneNode, otherNode]
  segments := some patchyMap

/-- A scan that has delivered a key of an unknown segment and has completed a segment. -/
def patchyScan : Scan :=
  { loneScan none with tracker := { seen := [(none, [1])], completed := .ofList [3] } }

/-- The segment without an owner goes to any node, the others go to their owners. -/
theorem replanned_replan_patchy :
    (patchyScan.replan patchyTopology).plan =
      [⟨none, some (.ofList [2])⟩, ⟨some loneNode, some (.ofList [0, 4])⟩,
        ⟨some otherNode, some (.ofList [1])⟩] ∧
    (patchyScan.replan patchyTopology).segmentCount = some 5 ∧
    Replanned patchyScan patchyTopology (patchyScan.replan patchyTopology) := by
  have hgroups : assignAll patchyMap.primaryOfSegment [0, 1, 2, 4] =
      [(some loneNode, .ofList [0, 4]), (some otherNode, .ofList [1]), (none, .ofList [2])] := by
    decide +kernel
  have hbefore : loneNode.before otherNode = true := by decide +kernel
  refine ⟨?_, by decide +kernel, replanned_replan patchyScan patchyTopology⟩
  change List.map _ (List.mergeSort (assignAll patchyMap.primaryOfSegment [0, 1, 2, 4]) _) = _
  rw [hgroups]
  simp [List.mergeSort, groupBefore, hbefore]

end Scan
end GridClient
