import GridClient.Proofs.Scan.Pages

/-!
# A tracker and a ledger that forgets nothing

A tracker drops the keys of a segment once it is complete, and does not file a loose key
under a complete segment. A ledger keeps every key that was ever accepted and every segment
that was ever completed. As long as keys are looked up where a scan looks them up, under no
segment first and under their own once the number of segments is known, the two cannot be
told apart by what they answer.
-/

namespace GridClient
namespace Tracker

open Scan (placeIn)

/-- What is done with a tracker. The keys are looked up by the place that is known for them,
and the number of segments becomes known when the keys are assigned. -/
inductive Act where
  | track (key : Bytes)
  | complete (segment : UInt32)
  | assign
  deriving DecidableEq, Repr

/-- The answers of a run, in order, and the state that it ends in. -/
def run {σ : Type} (step : σ → Act → List Bool × σ) : σ → List Act → List Bool × σ
  | s, [] => ([], s)
  | s, act :: acts =>
      let (answers, next) := step s act
      let (later, last) := run step next acts
      (answers ++ later, last)

/-- A tracker with the number of segments that it has been told. -/
structure InUse where
  known : Option UInt32 := none
  tracker : Tracker := {}
  deriving DecidableEq, Repr

def InUse.step (count : UInt32) (u : InUse) : Act → List Bool × InUse
  | .track key =>
      let (isNew, tracker) := u.tracker.track (placeIn u.known key) key
      ([isNew], { u with tracker })
  | .complete segment => ([], { u with tracker := u.tracker.complete segment })
  | .assign => ([], { known := some count, tracker := u.tracker.assign count })

structure Ledger where
  known : Option UInt32 := none
  accepted : List Bytes := []
  completed : List UInt32 := []
  deriving DecidableEq, Repr

namespace Ledger

/-- The key has never been accepted, and its segment, if that is known, is not complete. -/
def Fresh (l : Ledger) (key : Bytes) : Prop :=
  key ∉ l.accepted ∧ ∀ segment ∈ placeIn l.known key, segment ∉ l.completed

instance (l : Ledger) (key : Bytes) : Decidable (l.Fresh key) :=
  inferInstanceAs (Decidable (_ ∧ _))

def step (count : UInt32) (l : Ledger) : Act → List Bool × Ledger
  | .track key =>
      if l.Fresh key then ([true], { l with accepted := key :: l.accepted }) else ([false], l)
  | .complete segment => ([], { l with completed := segment :: l.completed })
  | .assign => ([], { l with known := some count })

end Ledger

/-!
# One act
-/

variable {count : UInt32} {u : InUse} {l : Ledger}

/-- The tracker answers for the ledger: it refuses the keys that are not fresh. What it has in
memory stands where it is looked up, and none of it belongs to a complete segment. -/
structure Agrees (count : UInt32) (u : InUse) (l : Ledger) : Prop where
  known : u.known = l.known
  told : ∀ c ∈ l.known, c = count
  completed : ∀ n, n ∈ u.tracker.completed ↔ n ∈ l.completed
  refuses : ∀ key, u.tracker.Refuses (placeIn l.known key) key ↔ ¬ l.Fresh key
  filed : ∀ entry ∈ u.tracker.seen, entry.1 = placeIn l.known entry.2
  forgotten : ∀ n ∈ u.tracker.completed, ∀ key, (some n, key) ∉ u.tracker.seen

namespace Agrees

theorem initial (count : UInt32) : Agrees count {} {} := by
  constructor
  case known => rfl
  case told => simp
  case completed => exact fun n => Iff.rfl
  case refuses => simp [refuses_iff, Ledger.Fresh, placeIn]
  case filed => simp
  case forgotten => simp

theorem remember (h : Agrees count u l) {key : Bytes} (hkey : l.Fresh key) :
    Agrees count { u with tracker := u.tracker.remember (placeIn l.known key) key }
      { l with accepted := key :: l.accepted } := by
  constructor
  case known => exact h.known
  case told => exact h.told
  case completed =>
    intro n
    rw [completed_remember]
    exact h.completed n
  case refuses =>
    intro other
    dsimp only
    rw [refuses_remember_iff, h.refuses other, Prod.mk.injEq]
    unfold Ledger.Fresh
    rw [List.mem_cons, not_or]
    constructor
    · rintro (⟨_, rfl⟩ | hold)
      · exact fun hfresh => hfresh.1.1 rfl
      · exact fun hfresh => hold ⟨hfresh.1.2, hfresh.2⟩
    · intro hfresh
      by_cases hsame : other = key
      · exact Or.inl ⟨by rw [hsame], hsame⟩
      · exact Or.inr fun hold => hfresh ⟨⟨hsame, hold.1⟩, hold.2⟩
  case filed =>
    intro entry hentry
    rcases mem_seen_remember.1 hentry with rfl | hold
    · rfl
    · exact h.filed entry hold
  case forgotten =>
    intro n hn other hentry
    rw [completed_remember] at hn
    rcases mem_seen_remember.1 hentry with hsame | hold
    · -- The key was fresh, so its segment is not complete.
      obtain ⟨hplace, -⟩ := Prod.mk.inj hsame
      exact hkey.2 n hplace.symm ((h.completed n).1 hn)
    · exact h.forgotten n hn other hold

theorem complete (h : Agrees count u l) (segment : UInt32) :
    Agrees count { u with tracker := u.tracker.complete segment }
      { l with completed := segment :: l.completed } := by
  constructor
  case known => exact h.known
  case told => exact h.told
  case completed =>
    intro n
    rw [mem_completed_complete, List.mem_cons, h.completed n]
  case refuses =>
    intro key
    dsimp only
    rw [refuses_complete_iff, h.refuses key]
    unfold Ledger.Fresh
    constructor
    · rintro (hplace | hold)
      · exact fun hfresh => hfresh.2 segment hplace List.mem_cons_self
      · exact fun hfresh => hold ⟨hfresh.1, fun n hn hmem =>
          hfresh.2 n hn (List.mem_cons_of_mem _ hmem)⟩
    · intro hfresh
      by_cases hplace : placeIn l.known key = some segment
      · exact Or.inl hplace
      · refine Or.inr fun hold => hfresh ⟨hold.1, fun n hn hmem => ?_⟩
        rcases List.mem_cons.1 hmem with rfl | hmem
        · exact hplace hn
        · exact hold.2 n hn hmem
  case filed => exact fun entry hentry => h.filed entry (mem_seen_complete.1 hentry).1
  case forgotten =>
    intro n hn key hentry
    obtain ⟨hseen, hother⟩ := mem_seen_complete.1 hentry
    rcases mem_completed_complete.1 hn with rfl | hold
    · exact hother rfl
    · exact h.forgotten n hold key hseen

/-- When the keys are filed, a key that the ledger has accepted is refused under its segment,
because it is filed there or because that segment is complete. -/
theorem refuses_segment (h : Agrees count u l) (key : Bytes) :
    u.tracker.Refuses (some (Hash.segmentOf key count)) key ∨ u.tracker.Refuses none key ↔
      ¬ (key ∉ l.accepted ∧ Hash.segmentOf key count ∉ l.completed) := by
  have hanswer := h.refuses key
  unfold Ledger.Fresh at hanswer
  cases hknown : l.known with
  | none =>
      -- All keys are loose: under a segment only a complete one refuses.
      have hfiled : u.tracker.Refuses (some (Hash.segmentOf key count)) key ↔
          Hash.segmentOf key count ∈ l.completed := by
        rw [refuses_iff, ← h.completed]
        constructor
        · rintro (⟨n, hn, hcomplete⟩ | hseen)
          · cases hn
            exact hcomplete
          · have hplace := h.filed _ hseen
            rw [hknown] at hplace
            cases hplace
        · exact fun hcomplete => Or.inl ⟨_, rfl, hcomplete⟩
      have hloose : u.tracker.Refuses none key ↔ key ∈ l.accepted := by
        simpa [hknown, placeIn] using hanswer
      rw [hfiled, hloose, not_and_or, not_not, not_not]
      exact or_comm
  | some c =>
      cases h.told c hknown
      -- No key is loose any more.
      have hloose : ¬ u.tracker.Refuses none key := by
        intro hrefuses
        rcases refuses_iff.1 hrefuses with ⟨n, hn, _⟩ | hseen
        · cases hn
        · have hplace := h.filed _ hseen
          rw [hknown] at hplace
          cases hplace
      rw [or_iff_left hloose]
      simpa [hknown, placeIn] using hanswer

theorem assign (h : Agrees count u l) :
    Agrees count { known := some count, tracker := u.tracker.assign count }
      { l with known := some count } := by
  constructor
  case known => rfl
  case told => rintro c ⟨⟩; rfl
  case completed =>
    intro n
    rw [completed_assign]
    exact h.completed n
  case refuses =>
    intro key
    have hplace : placeIn (some count) key = some (Hash.segmentOf key count) := rfl
    dsimp only
    rw [hplace, refuses_assign_iff, h.refuses_segment key]
    simp [Ledger.Fresh, hplace]
  case filed =>
    intro entry hentry
    rcases mem_seen_assign.1 hentry with ⟨hseen, hsome⟩ | ⟨-, -, hsegment⟩
    · have hplace := h.filed entry hseen
      cases hknown : l.known with
      | none =>
          rw [hknown] at hplace
          exact absurd hplace hsome
      | some c =>
          cases h.told c hknown
          rw [hplace, hknown]
    · exact hsegment
  case forgotten =>
    intro n hn key hentry
    rw [completed_assign] at hn
    rcases mem_seen_assign.1 hentry with ⟨hseen, -⟩ | ⟨-, hopen, hsegment⟩
    · exact h.forgotten n hn key hseen
    · obtain rfl : n = Hash.segmentOf key count := Option.some.inj hsegment
      exact hopen hn

theorem track_iff (h : Agrees count u l) (key : Bytes) :
    (u.tracker.track (placeIn u.known key) key).1 = true ↔ l.Fresh key := by
  rw [h.known, ← Bool.not_eq_false]
  exact (not_congr (h.refuses key)).trans not_not

/-- Every act is answered alike, and leaves tracker and ledger in agreement. -/
theorem step (h : Agrees count u l) (act : Act) :
    (u.step count act).1 = (l.step count act).1 ∧
      Agrees count (u.step count act).2 (l.step count act).2 := by
  cases act with
  | complete segment => exact ⟨rfl, h.complete segment⟩
  | assign => exact ⟨rfl, h.assign⟩
  | track key =>
      unfold InUse.step Ledger.step
      dsimp only
      rw [h.known]
      split
      · next hfresh =>
        have hnew : ¬ u.tracker.Refuses (placeIn l.known key) key :=
          fun hrefuses => (h.refuses key).1 hrefuses hfresh
        rw [track_of_not_refuses hnew]
        refine ⟨rfl, ?_⟩
        have hnext := h.remember hfresh
        rw [← h.known] at hnext ⊢
        exact hnext
      · next hstale =>
        rw [track_of_refuses ((h.refuses key).2 hstale)]
        refine ⟨rfl, ?_⟩
        rw [← h.known]
        exact h

end Agrees

/-!
# All acts
-/

theorem run_append {σ : Type} (step : σ → Act → List Bool × σ) (s : σ) (acts more : List Act) :
    run step s (acts ++ more) =
      ((run step s acts).1 ++ (run step (run step s acts).2 more).1,
        (run step (run step s acts).2 more).2) := by
  induction acts generalizing s with
  | nil => simp [run]
  | cons act acts ih => simp [run, ih]

theorem Agrees.run (h : Agrees count u l) (acts : List Act) :
    (run (InUse.step count) u acts).1 = (run (Ledger.step count) l acts).1 ∧
      Agrees count (run (InUse.step count) u acts).2 (run (Ledger.step count) l acts).2 := by
  induction acts generalizing u l with
  | nil => exact ⟨rfl, h⟩
  | cons act acts ih =>
      obtain ⟨hanswer, hnext⟩ := h.step act
      obtain ⟨hlater, hlast⟩ := ih hnext
      refine ⟨?_, hlast⟩
      simp only [Tracker.run, hanswer, hlater]

theorem completed_step (act : Act) {n : UInt32} (hn : n ∈ u.tracker.completed) :
    n ∈ (u.step count act).2.tracker.completed := by
  cases act with
  | complete segment => exact mem_completed_complete.2 (Or.inr hn)
  | assign =>
      unfold InUse.step
      dsimp only
      rw [completed_assign]
      exact hn
  | track key =>
      unfold InUse.step
      dsimp only
      by_cases hrefuses : u.tracker.Refuses (placeIn u.known key) key
      · rw [track_of_refuses hrefuses]
        exact hn
      · rw [track_of_not_refuses hrefuses, completed_remember]
        exact hn

theorem completed_run (acts : List Act) {n : UInt32} (hn : n ∈ u.tracker.completed) :
    n ∈ (run (InUse.step count) u acts).2.tracker.completed := by
  induction acts generalizing u with
  | nil => exact hn
  | cons act acts ih => exact ih (completed_step act hn)

/-- The tracker and the ledger that are left after some acts: both have given the same answers
and will give the same next, and what the tracker has forgotten it does not need. -/
structure Faithful (count : UInt32) (acts : List Act) (u : InUse) (l : Ledger) : Prop where
  answers : (run (InUse.step count) {} acts).1 = (run (Ledger.step count) {} acts).1
  next : ∀ key, (u.tracker.track (placeIn u.known key) key).1 = true ↔
    key ∉ l.accepted ∧ ∀ segment ∈ placeIn u.known key, segment ∉ l.completed
  completed : ∀ n, n ∈ u.tracker.completed ↔ n ∈ l.completed
  forgotten : ∀ n ∈ u.tracker.completed, ∀ key, (some n, key) ∉ u.tracker.seen
  grows : ∀ more, ∀ n ∈ u.tracker.completed,
    n ∈ (run (InUse.step count) {} (acts ++ more)).2.tracker.completed

/-- A tracker that forgets answers as a ledger that does not, whatever is tracked, completed
and assigned. -/
theorem faithful_run (count : UInt32) (acts : List Act) :
    Faithful count acts (run (InUse.step count) {} acts).2
      (run (Ledger.step count) {} acts).2 := by
  obtain ⟨hanswers, h⟩ := (Agrees.initial count).run acts
  constructor
  case answers => exact hanswers
  case next =>
    intro key
    rw [h.track_iff key, h.known]
    rfl
  case completed => exact h.completed
  case forgotten => exact h.forgotten
  case grows =>
    intro more n hn
    rw [run_append]
    exact completed_run more hn

/-- Two segments. The key `[2]` belongs to the segment that is complete before the keys are
filed, the others to the one that is completed afterwards. -/
def refiling : List Act :=
  [.track [1], .track [2], .track [1], .complete 1, .assign, .track [1], .track [2], .track [3],
    .complete 0, .track [3], .track [4]]

theorem faithful_run_refiling :
    (run (InUse.step 2) {} refiling).1 =
        [true, true, false, false, false, true, false, false] ∧
      (run (InUse.step 2) {} refiling).2.tracker.seen = [] ∧
      Faithful 2 refiling (run (InUse.step 2) {} refiling).2
        (run (Ledger.step 2) {} refiling).2 := by
  refine ⟨?_, ?_, faithful_run 2 refiling⟩
  · decide +kernel
  · decide +kernel

end Tracker
end GridClient
