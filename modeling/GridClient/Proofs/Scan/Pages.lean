import GridClient.Proofs.Scan.Plan
import GridClient.Proofs.Scan.Turn

/-!
# Taking in pages

Of the entries of a page a scan takes those for new whose keys its tracker has not
refused, and each key once. Where an entry is not taken for new, its key was refused
already or stands earlier on the page.
-/

namespace GridClient
namespace Scan

/-- The segment that a key is looked up by, once the number of segments is known. -/
def placeIn (count : Option UInt32) (key : Bytes) : Option UInt32 :=
  count.map fun count => Hash.segmentOf key count

/-- How a tracker goes through the entries of a page: which of them it takes for new, and
what it remembers afterwards. -/
inductive Tracks (count : Option UInt32) :
    Tracker → List ScanEntry → List ScanEntry → Tracker → Prop where
  | nil (t : Tracker) : Tracks count t [] [] t
  | refused {t after : Tracker} {e : ScanEntry} {rest taken : List ScanEntry}
      (he : t.Refuses (placeIn count e.key) e.key) (h : Tracks count t rest taken after) :
      Tracks count t (e :: rest) taken after
  | taken {t after : Tracker} {e : ScanEntry} {rest taken : List ScanEntry}
      (he : ¬ t.Refuses (placeIn count e.key) e.key)
      (h : Tracks count (t.remember (placeIn count e.key) e.key) rest taken after) :
      Tracks count t (e :: rest) (e :: taken) after

theorem tracks_track (count : Option UInt32) (t : Tracker) (entries : List ScanEntry) :
    Tracks count t entries (track count t entries).1 (track count t entries).2.2 := by
  induction entries generalizing t with
  | nil => exact .nil t
  | cons e rest ih =>
      by_cases he : t.Refuses (placeIn count e.key) e.key
      · have htrack := Tracker.track_of_refuses he
        unfold placeIn at htrack
        simp only [track, htrack]
        exact .refused he (ih t)
      · have htrack := Tracker.track_of_not_refuses he
        unfold placeIn at htrack
        simp only [track, htrack]
        exact .taken he (ih _)

namespace Tracks

variable {count : Option UInt32} {t after : Tracker} {entries taken : List ScanEntry}
  {e : ScanEntry}

theorem completed_eq (h : Tracks count t entries taken after) :
    after.completed = t.completed := by
  induction h with
  | nil => rfl
  | refused _ _ ih => exact ih
  | taken _ _ ih =>
      rw [ih]
      exact Tracker.completed_remember _ _ _

theorem refuses (h : Tracks count t entries taken after) {place : Option UInt32} {key : Bytes}
    (hkey : t.Refuses place key) : after.Refuses place key := by
  induction h with
  | nil => exact hkey
  | refused _ _ ih => exact ih hkey
  | taken _ _ ih => exact ih (hkey.remember _ _)

theorem subset (h : Tracks count t entries taken after) : taken ⊆ entries := by
  induction h with
  | nil => exact List.Subset.refl _
  | refused _ _ ih => exact List.subset_cons_of_subset _ ih
  | taken _ _ ih => exact List.cons_subset_cons _ ih

/-- The keys taken for new have not been refused before. -/
theorem not_refuses (h : Tracks count t entries taken after) (he : e ∈ taken) :
    ¬ t.Refuses (placeIn count e.key) e.key := by
  induction h with
  | nil => cases he
  | refused _ _ ih => exact ih he
  | taken hfirst _ ih =>
      rcases List.mem_cons.1 he with rfl | he
      · exact hfirst
      · intro hrefused
        exact ih he (hrefused.remember _ _)

theorem nodup (h : Tracks count t entries taken after) :
    (taken.map ScanEntry.key).Nodup := by
  induction h with
  | nil => exact List.nodup_nil
  | refused _ _ ih => exact ih
  | taken _ hrest ih =>
      rw [List.map_cons, List.nodup_cons]
      refine ⟨?_, ih⟩
      intro hmem
      rcases List.mem_map.1 hmem with ⟨other, hother, hsame⟩
      apply hrest.not_refuses hother
      rw [hsame]
      exact Tracker.refuses_remember _ _ _

/-- After a page all its keys are refused, the new ones and the others. -/
theorem refuses_of_mem (h : Tracks count t entries taken after) (he : e ∈ entries) :
    after.Refuses (placeIn count e.key) e.key := by
  induction h with
  | nil => cases he
  | refused hfirst hrest ih =>
      rcases List.mem_cons.1 he with rfl | he
      · exact hrest.refuses hfirst
      · exact ih he
  | taken _ hrest ih =>
      rcases List.mem_cons.1 he with rfl | he
      · exact hrest.refuses (Tracker.refuses_remember _ _ _)
      · exact ih he

/-- An entry that is not taken for new was refused before, or one with its key is new. -/
theorem mem_or_refuses (h : Tracks count t entries taken after) (he : e ∈ entries) :
    (∃ f ∈ taken, f.key = e.key) ∨ t.Refuses (placeIn count e.key) e.key := by
  induction h with
  | nil => cases he
  | refused hfirst _ ih =>
      rcases List.mem_cons.1 he with rfl | he
      · exact Or.inr hfirst
      · exact ih he
  | @taken t _ first _ _ _ _ ih =>
      rcases List.mem_cons.1 he with rfl | he
      · exact Or.inl ⟨e, List.mem_cons_self, rfl⟩
      · rcases ih he with ⟨f, hf, hkey⟩ | hrefused
        · exact Or.inl ⟨f, List.mem_cons_of_mem _ hf, hkey⟩
        · rcases Tracker.refuses_of_remember hrefused with hsame | hold
          · exact Or.inl ⟨first, List.mem_cons_self, hsame.symm⟩
          · exact Or.inr hold

/-- A key that a page adds to those seen is the key of a new entry. -/
theorem seen (h : Tracks count t entries taken after) {entry : Option UInt32 × Bytes}
    (hentry : entry ∈ after.seen) : (∃ e ∈ taken, e.key = entry.2) ∨ entry ∈ t.seen := by
  induction h with
  | nil => exact Or.inr hentry
  | refused _ _ ih => exact ih hentry
  | @taken _ _ first _ _ _ _ ih =>
      rcases ih hentry with ⟨e, he, hkey⟩ | hseen
      · exact Or.inl ⟨e, List.mem_cons_of_mem _ he, hkey⟩
      · rcases Tracker.mem_seen_remember.1 hseen with rfl | hseen
        · exact Or.inl ⟨first, List.mem_cons_self, rfl⟩
        · exact Or.inr hseen

end Tracks

/-!
# Completed segments
-/

theorem mem_completed_takeIn {s : Scan} {page : Page} {group : Option SegmentSet} {n : UInt32} :
    n ∈ (s.takeIn page group).2.tracker.completed ↔
      (n ∈ page.finished ∧ covers group n = true) ∨ n ∈ s.tracker.completed := by
  change n ∈ (completeWithin group _ page.finished).completed ↔ _
  unfold completeWithin
  rw [Tracker.mem_completed_completeAll, List.mem_filter, (tracks_track _ _ _).completed_eq]
  rfl

theorem seen_completeGroup_subset {s : Scan} {group : Option SegmentSet} :
    (s.completeGroup group).tracker.seen ⊆ s.tracker.seen := by
  cases group with
  | none => exact List.Subset.refl _
  | some g => exact Tracker.seen_completeAll_subset

theorem mem_completed_completeGroup {s : Scan} {group : Option SegmentSet} {n : UInt32} :
    n ∈ (s.completeGroup group).tracker.completed ↔
      (∃ g, group = some g ∧ n ∈ g) ∨ n ∈ s.tracker.completed := by
  cases group with
  | none => simp [completeGroup]
  | some g =>
      change n ∈ (g.toList.foldl Tracker.complete s.tracker).completed ↔ _
      rw [Tracker.mem_completed_completeAll]
      simp only [Option.some.injEq, exists_eq_left']
      rfl

end Scan
end GridClient
