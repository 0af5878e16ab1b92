import GridClient.Proofs.Scan.Pages
import GridClient.Proofs.Scan.Played

/-!
# Keys are delivered once

Whatever servers answer, a scan delivers no key twice over its whole life. The tracker
refuses every key that has been delivered, under the segment that the scan would look it
up by at the moment; each turn keeps that so, and delivers only keys that the tracker has
not refused.
-/

namespace GridClient
namespace Scan

/-- The scan would not deliver the key any more. -/
def Knows (s : Scan) (key : Bytes) : Prop :=
  s.tracker.Refuses (placeIn s.segmentCount key) key

/-- A scan that has become another one by delivering some keys, and nothing else. -/
structure Adds (s : Scan) (keys : List Bytes) (t : Scan) : Prop where
  learns : ∀ key, s.Knows key → t.Knows key
  nodup : keys.Nodup
  fresh : ∀ key ∈ keys, ¬ s.Knows key
  known : ∀ key ∈ keys, t.Knows key

namespace Adds

theorem of_learns {s t : Scan} (h : ∀ key, s.Knows key → t.Knows key) : Adds s [] t where
  learns := h
  nodup := List.nodup_nil
  fresh := by simp
  known := by simp

theorem refl (s : Scan) : Adds s [] s :=
  of_learns fun _ h => h

/-- First the scan learns something, then it delivers. -/
theorem trans {s t u : Scan} {keys : List Bytes} (hst : Adds s [] t) (htu : Adds t keys u) :
    Adds s keys u where
  learns key h := htu.learns key (hst.learns key h)
  nodup := htu.nodup
  fresh key hkey h := htu.fresh key hkey (hst.learns key h)
  known := htu.known

end Adds

/-!
# What the parts of a turn add
-/

theorem knows_adopt {s : Scan} {key : Bytes} (h : s.Knows key) (count : UInt32) :
    (s.adopt count).Knows key := by
  unfold adopt
  split
  · exact h
  · next hcount =>
    unfold Knows placeIn at h ⊢
    rw [hcount] at h
    exact h.assign count

theorem adds_replan (s : Scan) (t : Topology) : Adds s [] (s.replan t) := by
  apply Adds.of_learns
  intro key h
  unfold replan
  split
  · split
    · exact knows_adopt h _
    · exact h
  · exact h

theorem adds_takeIn (s : Scan) (page : Page) (group : Option SegmentSet) :
    Adds s ((s.takeIn page group).1.map ScanEntry.key) (s.takeIn page group).2 := by
  have htracks := tracks_track s.segmentCount s.tracker page.entries
  constructor
  · intro key hkey
    exact (htracks.refuses hkey).completeAll _
  · exact htracks.nodup
  · intro key hkey
    rcases List.mem_map.1 hkey with ⟨e, he, rfl⟩
    exact htracks.not_refuses he
  · intro key hkey
    rcases List.mem_map.1 hkey with ⟨e, he, rfl⟩
    exact (htracks.refuses_of_mem (htracks.subset he)).completeAll _

theorem adds_completeGroup (s : Scan) (group : Option SegmentSet) :
    Adds s [] (s.completeGroup group) := by
  apply Adds.of_learns
  intro key h
  cases group with
  | none => exact h
  | some g => exact h.completeAll _

theorem adds_drained {s : Scan} {a : ActiveIteration} {page : Page}
    (hpage : page.isLast = true) : Adds s [] (s.drained a page) := by
  have hentries : page.entries = [] := List.isEmpty_iff.1 hpage
  have htake := adds_takeIn s.idle page a.segments
  have hfresh : (s.idle.takeIn page a.segments).1 = [] := by simp [takeIn, hentries, track]
  rw [hfresh] at htake
  exact Adds.trans ⟨htake.learns, htake.nodup, htake.fresh, htake.known⟩ (adds_completeGroup _ _)

/-!
# What a turn adds
-/

def PageResult.keys : PageResult → List Bytes
  | .ok (some page) => page.map ScanEntry.key
  | _ => []

def Turn.keys : Turn → List Bytes
  | result r _ => r.keys
  | again _ => []

@[simp] theorem keys_again (s : Scan) : (Turn.again s).keys = [] :=
  rfl

@[simp] theorem keys_nothing (s : Scan) : (Turn.result (.ok none) s).keys = [] :=
  rfl

theorem keys_paged (s : Scan) (a : ActiveIteration) (page : Page) :
    (s.paged a page).keys =
      (takeIn { s with failures := 0 } page a.segments).1.map ScanEntry.key := by
  unfold paged
  dsimp only
  split
  · next hfresh =>
    rw [List.isEmpty_iff.1 hfresh]
    rfl
  · rfl

theorem adds_paged (s : Scan) (a : ActiveIteration) (page : Page) :
    Adds s (s.paged a page).keys (s.paged a page).scan := by
  have htake := adds_takeIn { s with failures := 0 } page a.segments
  rw [keys_paged, scan_paged]
  exact ⟨htake.learns, htake.nodup, htake.fresh, htake.known⟩

/-- The keys that a turn delivers up to a stand. -/
def delivers : Stand Turn → List Bytes
  | .done turn => turn.keys
  | .waiting _ => []

theorem Pulls.adds {s : Scan} {a : ActiveIteration} {trace : Trace} {stand : Stand Turn}
    (h : Pulls s a trace stand) : Adds s (delivers stand) (s.leaves trace stand) := by
  have hreplan (v : Topology) : Adds s [] (s.interrupted.idle.replan v) :=
    Adds.trans (t := s.interrupted.idle) (.of_learns fun _ h => h) (adds_replan _ v)
  cases h with
  | asking t time => exact .refl s
  | page hpage => exact adds_paged s a _
  | @drained t time page trace stand hpage hend =>
      cases stand with
      | done r => exact adds_drained hpage
      | waiting q =>
          have hleft : s.leaves (s.pulled a t time (.completed page) ++
              ⟨.note (s.drained a page), ()⟩ :: trace) (.waiting q) = s.drained a page := by
            simp [afterNotes_of_serves hend.serves]
          rw [Program.Stand.map_waiting, hleft]
          exact adds_drained hpage
  | changedTooOften hlimit => exact .of_learns fun _ h => h
  | leaving hlimit hend =>
      rw [leaves_waiting]
      simp only [afterNotes_append, afterNotes_note, afterNotes_of_serves hend.serves]
      exact .of_learns fun _ h => h
  | changed hlimit hend => exact hreplan _
  | lostTooOften hlimit => exact .of_learns fun _ h => h
  | refreshing hlimit hping =>
      have hvain := Call.vain_of_reaches_refresh .iterationNext (by decide) hping
      rw [leaves_waiting]
      simp only [afterNotes_append, afterNotes_note, afterNotes_now,
        afterNotes_of_serves fun e he => (hvain.1 e he).serves]
      exact .of_learns fun _ h => h
  | lost hlimit hping => exact hreplan _
  | @failed t time e trace stand hend =>
      cases stand with
      | done r => exact .of_learns fun _ h => h
      | waiting q =>
          rw [Program.Stand.map_waiting, leaves_waiting]
          simp only [afterNotes_append, afterNotes_note, afterNotes_of_serves hend.serves]
          exact .of_learns fun _ h => h

theorem Proceeds.adds {s : Scan} {trace : Trace} {stand : Stand Turn}
    (h : Proceeds s trace stand) : Adds s (delivers stand) (s.leaves trace stand) := by
  cases h with
  | pulls ha h => exact h.adds
  | exhausted ha hplan => exact .of_learns fun _ h => h
  | starting ha hplan hstart =>
      rw [leaves_waiting, afterNotes_note, afterNotes_of_serves hstart.serves]
      exact .of_learns fun _ h => h
  | refused ha hplan hstart => exact .refl s
  | @started g rest trace last stand cursor ha hplan hstart h =>
      have hleaves := h.leaves_append s (⟨.note (s.planning rest), ()⟩ :: trace)
      rw [List.cons_append] at hleaves
      rw [hleaves]
      refine Adds.trans ?_ h.adds
      exact .of_learns fun _ h => h

theorem Takes.adds {s : Scan} {trace : Trace} {stand : Stand Turn} (h : Takes s trace stand) :
    Adds s (delivers stand) (s.leaves trace stand) := by
  cases h with
  | ended hstate => exact .refl s
  | running hstate h => exact h.adds
  | @first t trace stand hstate h =>
      have hleaves := h.leaves_append s [⟨.topology s.cache.key, t⟩]
      rw [List.singleton_append] at hleaves
      rw [hleaves]
      refine Adds.trans ?_ h.adds
      exact .of_learns (adds_replan s t).learns

/-!
# Whole lives
-/

/-- The keys of the entries that a call has returned; a dropped call returns none. -/
def Called.keys (c : Called) : List Bytes :=
  match c.ending with
  | .returned r => r.keys
  | .dropped _ => []

/-- The keys of all entries that have been returned, in order. -/
def delivered (history : List Called) : List Bytes :=
  history.flatMap Called.keys

theorem delivered_append (history : List Called) (c : Called) :
    delivered (history ++ [c]) = delivered history ++ c.keys := by
  simp [delivered]

/-- All keys that have been returned are distinct, and the scan knows them. -/
structure Remembers (history : List Called) (s : Scan) : Prop where
  nodup : (delivered history).Nodup
  knows : ∀ key ∈ delivered history, s.Knows key

theorem Remembers.extend {history : List Called} {c : Called} {s t : Scan}
    (h : Remembers history s) (hadds : Adds s c.keys t) : Remembers (history ++ [c]) t := by
  constructor
  · rw [delivered_append]
    refine List.nodup_append.2 ⟨h.nodup, hadds.nodup, ?_⟩
    rintro key hold _ hnew rfl
    exact hadds.fresh key hnew (h.knows key hold)
  · intro key hkey
    rw [delivered_append] at hkey
    rcases List.mem_append.1 hkey with hold | hnew
    · exact hadds.learns key (h.knows key hold)
    · exact hadds.known key hnew

theorem remembers_of_lives {start s : Scan} {history : List Called}
    (h : Lives start history s) : Remembers history s := by
  refine h.preserves Remembers (fun history _ s => Remembers history s) ?_ ?_ ?_ ?_ ?_
  · exact ⟨List.nodup_nil, by simp [delivered]⟩
  · intro history s hlife hs
    exact hs
  · intro history trace s last t hs hturn
    exact ⟨hs.nodup, fun key hkey => hturn.adds.learns key (hs.knows key hkey)⟩
  · intro history trace s last r t hs hturn
    exact hs.extend hturn.adds
  · intro history trace s last q hs hturn
    exact hs.extend hturn.adds

/-- No key is delivered twice in the life of a scan, whatever its calls are answered. -/
theorem delivered_nodup {start s : Scan} {history : List Called} (h : Lives start history s) :
    (delivered history).Nodup :=
  (remembers_of_lives h).nodup

/-- Two keys arrive while the number of segments is unknown. Then the topology changes, and
a new iteration brings one of them again, with a third one. -/
def redelivery : Answers where
  topologies := [Answers.unheard, Answers.unheard, Answers.unheard, Answers.unheard, loneTopology]
  starts := [.completed (loneCursor "x"), .completed (loneCursor "y")]
  pages := [.completed ⟨[], [loneEntry 1, loneEntry 2, loneEntry 1]⟩, .retryTopology,
    .completed ⟨[], [loneEntry 2, loneEntry 3]⟩]

theorem delivered_nodup_redelivery :
    delivered (played 5 (loneScan none) redelivery 2).1 = [[1], [2], [3]] ∧
      (delivered (played 5 (loneScan none) redelivery 2).1).Nodup := by
  constructor
  · decide +kernel
  · exact delivered_nodup (lives_played 5 _ _ 2)

end Scan
end GridClient
