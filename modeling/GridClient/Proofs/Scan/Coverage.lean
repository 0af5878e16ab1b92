import GridClient.Proofs.Program.History
import GridClient.Proofs.Scan.Losses
import GridClient.Proofs.Scan.Pages
import GridClient.Proofs.Scan.Plan
import GridClient.Proofs.Scan.Played

/-!
# Segments that a plan forgets

A running scan has every unfinished segment in exactly one of its parts, unless it has
forsaken the segment. It forsakes the segments of an iteration when it gives up because
their node cannot be reached: the iteration is gone and nothing is planned in its place.
They stay forsaken until a call recovers from a later loss and plans anew.
-/

namespace GridClient
namespace Scan

def noteOf (e : Event) : Option Scan :=
  match e.ask with
  | .note s => some s
  | _ => none

def lastNote (trace : Trace) : Option Scan :=
  (trace.filterMap noteOf).getLast?

/-- The call gives up because a node could not be reached, and the segment belongs to the
iteration that was lost with the node. -/
def Called.Abandons (c : Called) (n : UInt32) : Prop :=
  c.GivesUp "connectivity" ∧
    ∃ s a, lastNote c.trace = some s ∧ s.active = some a ∧ covers a.segments n = true

/-- The call has recovered from a loss, not counting the one it may give up over. -/
def Called.Recovers (c : Called) : Prop :=
  0 < losses c.trace ∧ ((∃ cause, c.GivesUp cause) → 1 < losses c.trace)

/-- A call has abandoned the segment, and no call has recovered from a loss since. -/
def Forsaken (n : UInt32) (history : List Called) : Prop :=
  Since (fun c => c.Abandons n) Called.Recovers history

/-!
# Parts
-/

/-- Every unfinished segment is in exactly one part, or it is forsaken and in none. -/
structure Split (forsaken : UInt32 → Prop) (s : Scan) : Prop where
  held : ∀ n, s.Unfinished n → ¬ forsaken n → s.holders n = 1
  missed : ∀ n, s.Unfinished n → forsaken n → s.holders n = 0
  whole : none ∈ s.parts → s.requested = none

theorem holders_of_active {s : Scan} {a : ActiveIteration} (ha : s.active = some a) (n : UInt32) :
    s.holders n = s.idle.holders n + if covers a.segments n then 1 else 0 := by
  unfold holders parts
  rw [ha]
  simp [idle, List.countP_cons]

theorem Unfinished.of_completed {s t : Scan} {n : UInt32} (hrequested : t.requested = s.requested)
    (hcompleted : n ∈ s.tracker.completed → n ∈ t.tracker.completed) (h : t.Unfinished n) :
    s.Unfinished n := by
  rcases unfinished_iff.1 h with ⟨segments, hsegments, hn, hopen⟩
  exact unfinished_iff.2 ⟨segments, hrequested.symm.trans hsegments, hn, fun h => hopen (hcompleted h)⟩

namespace Split

variable {forsaken : UInt32 → Prop} {s t : Scan}

/-- A scan with the same parts, some more of whose segments may be completed. -/
theorem of_completed (h : Split forsaken s) (hparts : t.parts = s.parts)
    (hrequested : t.requested = s.requested)
    (hcompleted : ∀ n, n ∈ s.tracker.completed → n ∈ t.tracker.completed) : Split forsaken t where
  held n hn hkept := by
    unfold holders
    rw [hparts]
    exact h.held n (hn.of_completed hrequested (hcompleted n)) hkept
  missed n hn hforsaken := by
    unfold holders
    rw [hparts]
    exact h.missed n (hn.of_completed hrequested (hcompleted n)) hforsaken
  whole hwhole := by
    rw [hparts] at hwhole
    rw [hrequested]
    exact h.whole hwhole

theorem congr {other : UInt32 → Prop} (h : Split forsaken s) (hiff : ∀ n, other n ↔ forsaken n) :
    Split other s where
  held n hn hkept := h.held n hn (mt (hiff n).2 hkept)
  missed n hn hforsaken := h.missed n hn ((hiff n).1 hforsaken)
  whole := h.whole

theorem of_plans {u : Topology} (h : Plans s u t) (hidle : s.active = none)
    (hnone : ∀ n, ¬ forsaken n) : Split forsaken t where
  held n hn _ := h.holders_eq_one hidle hn
  missed n _ hforsaken := absurd hforsaken (hnone n)
  whole hwhole := by
    rw [h.parts_eq hidle] at hwhole
    rcases List.mem_map.1 hwhole with ⟨g, hg, hsegments⟩
    exact h.requested_of_whole hg hsegments

theorem idle_whole (h : Split forsaken s) (hwhole : none ∈ s.idle.parts) : s.requested = none := by
  have hplan : none ∈ s.plan.map ScanGroup.segments := hwhole
  exact h.whole (List.mem_append_right _ hplan)

theorem lose {a : ActiveIteration} (h : Split forsaken s) (ha : s.active = some a) :
    Split (fun n => covers a.segments n = true ∨ forsaken n) s.idle where
  held n hn hkept := by
    rw [not_or] at hkept
    have hheld := h.held n hn hkept.2
    rw [holders_of_active ha, if_neg hkept.1] at hheld
    exact hheld
  missed n hn hforsaken := by
    have hholders := holders_of_active ha n
    rcases hforsaken with hcovers | hforsaken
    · rw [if_pos hcovers] at hholders
      by_cases hf : forsaken n
      · have hmissed := h.missed n hn hf
        omega
      · have hheld := h.held n hn hf
        omega
    · have hmissed := h.missed n hn hforsaken
      omega
  whole hwhole := h.idle_whole hwhole

theorem drain {a : ActiveIteration} (h : Split forsaken s) (ha : s.active = some a) (page : Page) :
    Split forsaken (s.drained a page) := by
  have hrequested : (s.drained a page).requested = s.requested := by
    rw [drained_eq]
    rfl
  have hholders (n : UInt32) : (s.drained a page).holders n = s.idle.holders n := by
    rw [drained_eq]
    rfl
  have hcovers {n : UInt32} (hn : (s.drained a page).Unfinished n) :
      s.Unfinished n ∧ s.holders n = (s.drained a page).holders n := by
    have hold : s.Unfinished n := by
      apply hn.of_completed hrequested
      intro hcompleted
      exact mem_completed_completeGroup.2 (Or.inr (mem_completed_takeIn.2 (Or.inr hcompleted)))
    refine ⟨hold, ?_⟩
    rw [holders_of_active ha, hholders, if_neg, Nat.add_zero]
    intro hcover
    rcases unfinished_iff.1 hn with ⟨segments, hsegments, -, hopen⟩
    cases hgroup : a.segments with
    | none =>
        have hwhole : none ∈ s.parts := by simp [parts, ha, hgroup]
        rw [hrequested, h.whole hwhole] at hsegments
        cases hsegments
    | some g =>
        rw [hgroup] at hcover
        refine hopen (mem_completed_completeGroup.2 (Or.inl ⟨g, hgroup, ?_⟩))
        exact SegmentSet.contains_iff.1 hcover
  constructor
  · intro n hn hkept
    rw [← (hcovers hn).2]
    exact h.held n (hcovers hn).1 hkept
  · intro n hn hforsaken
    rw [← (hcovers hn).2]
    exact h.missed n (hcovers hn).1 hforsaken
  · intro hwhole
    rw [hrequested]
    apply h.idle_whole
    rw [drained_eq] at hwhole
    exact hwhole

end Split

/-!
# Turns
-/

theorem Split.paged {forsaken : UInt32 → Prop} {s : Scan} (h : Split forsaken s)
    (a : ActiveIteration) (page : Page) : Split forsaken (s.paged a page).scan := by
  rw [scan_paged]
  refine h.of_completed rfl rfl ?_
  intro n hn
  exact mem_completed_takeIn.2 (Or.inr hn)

theorem Split.replan {forsaken : UInt32 → Prop} {s : Scan} (hidle : s.active = none)
    (hnone : ∀ n, ¬ forsaken n) (t : Topology) : Split forsaken (s.replan t) :=
  .of_plans (plans_replan s t) hidle hnone

theorem Split.walking {forsaken : UInt32 → Prop} {s : Scan} (h : Split forsaken s)
    (ha : s.active = none) {g : ScanGroup} {rest : List ScanGroup} (hplan : s.plan = g :: rest)
    (cursor : Cursor) : Split forsaken (s.walking rest ⟨cursor, g.segments⟩) := by
  refine h.of_completed ?_ rfl fun _ hn => hn
  simp [parts, Scan.walking, ha, hplan]

theorem Split.forsaken_of_exhausted {forsaken : UInt32 → Prop} {s : Scan} (h : Split forsaken s)
    (ha : s.active = none) (hplan : s.plan = []) {n : UInt32} (hn : s.Unfinished n) :
    forsaken n := by
  by_contra hkept
  have hheld := h.held n hn hkept
  unfold holders parts at hheld
  rw [ha, hplan] at hheld
  cases hheld

/-- A turn that goes on has forsaken what was forsaken before, unless it has recovered from
a loss. -/
structure GoesOn (forsaken : UInt32 → Prop) (trace : Trace) (t : Scan) : Prop where
  running : t.state = .running
  split : Split (fun n => forsaken n ∧ losses trace = 0) t

/-- A turn that ends a call adds to what is forsaken what the call abandons. -/
structure EndsWith (forsaken : UInt32 → Prop) (first trace : Trace) (r : PageResult)
    (t : Scan) : Prop where
  started : t.state ≠ .notStarted
  recovers : Called.Recovers ⟨first ++ trace, .returned r⟩ ↔ 0 < losses first
  split : t.state = .running →
    Split (fun n => Called.Abandons ⟨first ++ trace, .returned r⟩ n ∨ forsaken n) t

theorem GoesOn.of_quiet {forsaken : UInt32 → Prop} {trace : Trace} {t : Scan}
    (hrunning : t.state = .running) (hquiet : losses trace = 0) (h : Split forsaken t) :
    GoesOn forsaken trace t :=
  ⟨hrunning, h.congr fun _ => and_iff_left hquiet⟩

theorem GoesOn.of_replan {forsaken : UInt32 → Prop} {trace : Trace} {s : Scan}
    (hrunning : s.state = .running) (hidle : s.active = none) (hloss : losses trace ≠ 0)
    (u : Topology) : GoesOn forsaken trace (s.replan u) where
  running := by
    rw [(plans_replan s u).eq]
    exact hrunning
  split := .replan hidle (fun n h => hloss h.2) u

theorem EndsWith.of_quiet {forsaken : UInt32 → Prop} {first trace : Trace} {r : PageResult}
    {t : Scan} (hstarted : t.state ≠ .notStarted)
    (hkeeps : ∀ cause, ¬ Called.GivesUp ⟨first ++ trace, .returned r⟩ cause)
    (hquiet : losses trace = 0) (h : t.state = .running → Split forsaken t) :
    EndsWith forsaken first trace r t where
  started := hstarted
  recovers := by
    unfold Called.Recovers
    rw [losses_append, hquiet, Nat.add_zero]
    exact and_iff_left fun ⟨cause, hup⟩ => absurd hup (hkeeps cause)
  split hrunning := (h hrunning).congr fun _ => or_iff_right fun ⟨hup, _⟩ => hkeeps _ hup

theorem EndsWith.recovers_of_loss {first trace : Trace} {r : PageResult} {cause : String}
    (hup : Called.GivesUp ⟨first ++ trace, .returned r⟩ cause) (hloss : losses trace = 1) :
    Called.Recovers ⟨first ++ trace, .returned r⟩ ↔ 0 < losses first := by
  unfold Called.Recovers
  rw [losses_append, hloss]
  constructor
  · intro hups
    rcases hups with ⟨-, hmore⟩
    have := hmore ⟨cause, hup⟩
    omega
  · intro hfirst
    exact ⟨by omega, fun _ => by omega⟩

theorem Pulls.goesOn {forsaken : UInt32 → Prop} {s t : Scan} {a : ActiveIteration}
    {trace : Trace} (hs : Split forsaken s) (hrunning : s.state = .running)
    (ha : s.active = some a) (h : Pulls s a trace (.done (.again t))) :
    GoesOn forsaken trace t := by
  generalize hstand : (.done (.again t) : Stand Turn) = stand at h
  cases h with
  | @page u time page hpage =>
      have hpaged := hs.paged a page
      unfold paged at hstand hpaged
      dsimp only at hstand hpaged
      split at hstand
      · next hfresh =>
        cases hstand
        rw [if_pos hfresh] at hpaged
        exact .of_quiet hrunning (by simp) hpaged
      · cases hstand
  | @drained u time page trace stand hpage hend =>
      cases stand <;> cases hstand
      refine .of_quiet ?_ ?_ (hs.drain ha page)
      · rw [drained_eq]
        exact hrunning
      · simp [hend.losses_eq_zero (by decide)]
  | changed hlimit hend =>
      cases hstand
      exact .of_replan (s := s.interrupted.idle) hrunning rfl (by simp) _
  | lost hlimit hping =>
      cases hstand
      exact .of_replan (s := s.interrupted.idle) hrunning rfl (by simp) _
  | changedTooOften hlimit => cases hstand
  | lostTooOften hlimit => cases hstand
  | failed hend => cases ‹Stand _› <;> cases hstand
  | asking t time => cases hstand
  | leaving hlimit hend => cases hstand
  | refreshing hlimit hping => cases hstand

theorem Pulls.endsWith {forsaken : UInt32 → Prop} {s t : Scan} {a : ActiveIteration}
    {trace : Trace} {r : PageResult} (hs : Split forsaken s) (hrunning : s.state = .running)
    (ha : s.active = some a) (h : Pulls s a trace (.done (.result r t))) (first : Trace) :
    EndsWith forsaken first trace r t := by
  have hstarted : s.state ≠ .notStarted := by
    rw [hrunning]
    decide
  generalize hstand : (.done (.result r t) : Stand Turn) = stand at h
  cases h with
  | @page u time page hpage =>
      have hpaged := hs.paged a page
      unfold paged at hstand hpaged
      dsimp only at hstand hpaged
      split at hstand
      · cases hstand
      · next hfresh =>
        cases hstand
        rw [if_neg hfresh] at hpaged
        exact .of_quiet hstarted (fun _ => not_givesUp_of_ok) (by simp) fun _ => hpaged
  | @changedTooOften v u time hlimit =>
      cases hstand
      have hup := givesUp_of_losing (first ++ s.pulled a v time .retryTopology) s s.interrupted u
        "topology"
      rw [List.append_assoc] at hup
      refine ⟨hstarted, EndsWith.recovers_of_loss hup (by simp), fun _ => ?_⟩
      have hsame : Split forsaken s.interrupted := hs.of_completed rfl rfl fun _ hn => hn
      apply hsame.congr
      intro n
      apply or_iff_right
      intro hups
      rcases hups with ⟨hother, -⟩
      exact absurd (hup.cause_eq hother) (by decide)
  | @lostTooOften v u time e hlimit =>
      cases hstand
      have hup := givesUp_of_losing (first ++ s.pulled a v time (.retryConnectivity e)) s
        s.interrupted u "connectivity"
      rw [List.append_assoc] at hup
      refine ⟨hstarted, EndsWith.recovers_of_loss hup (by simp), fun _ => ?_⟩
      have hnote : lastNote (first ++ (s.pulled a v time (.retryConnectivity e) ++
          s.losing u "connectivity")) = some s := by
        unfold lastNote
        rw [List.filterMap_append]
        exact List.getLast?_concat
      have hlost : Split (fun n => covers a.segments n = true ∨ forsaken n) s.interrupted.idle :=
        (hs.lose ha).of_completed rfl rfl fun _ hn => hn
      apply hlost.congr
      intro n
      apply or_congr_left
      constructor
      · intro hlost
        rcases hlost with ⟨-, s', b, hs', hb, hcovers⟩
        cases hnote.symm.trans hs'
        cases ha.symm.trans hb
        exact hcovers
      · intro hcovers
        exact ⟨hup, s, a, hnote, ha, hcovers⟩
  | failed hend =>
      cases ‹Stand _› <;> cases hstand
      refine .of_quiet (by simp) ?_ ?_ (fun h => by cases h)
      · intro cause
        rw [← List.append_assoc]
        apply not_givesUp_of_note
        intro e he
        exact lossOf_of_serves (by decide) (hend.serves e he)
      · simp [hend.losses_eq_zero (by decide)]
  | drained hpage hend => cases ‹Stand _› <;> cases hstand
  | changed hlimit hend => cases hstand
  | lost hlimit hping => cases hstand
  | asking t time => cases hstand
  | leaving hlimit hend => cases hstand
  | refreshing hlimit hping => cases hstand

theorem Proceeds.goesOn {forsaken : UInt32 → Prop} {s t : Scan} {trace : Trace}
    (hs : Split forsaken s) (hrunning : s.state = .running)
    (h : Proceeds s trace (.done (.again t))) : GoesOn forsaken trace t := by
  cases h with
  | pulls ha h => exact h.goesOn hs hrunning ha
  | @started g rest trace last stand cursor ha hplan hstart h =>
      have hpull := h.goesOn (hs.walking ha hplan cursor) hrunning rfl
      have hlosses : losses (⟨.note (s.planning rest), ()⟩ :: (trace ++ last)) = losses last := by
        simp [hstart.losses_eq_zero (by decide)]
      refine ⟨hpull.running, ?_⟩
      rw [hlosses]
      exact hpull.split

theorem Proceeds.endsWith {forsaken : UInt32 → Prop} {s t : Scan} {trace : Trace}
    {r : PageResult} (hs : Split forsaken s) (hrunning : s.state = .running)
    (h : Proceeds s trace (.done (.result r t))) (first : Trace) :
    EndsWith forsaken first trace r t := by
  cases h with
  | pulls ha h => exact h.endsWith hs hrunning ha first
  | exhausted ha hplan =>
      exact .of_quiet (by simp) (fun _ => not_givesUp_of_ok) rfl fun hstate => by cases hstate
  | refused ha hplan hstart =>
      refine .of_quiet ?_ ?_ ?_ fun _ => hs
      · rw [hrunning]
        decide
      · intro cause
        apply not_givesUp_of_note
        intro e he
        exact lossOf_of_serves (by decide) (hstart.serves e he)
      · simp [hstart.losses_eq_zero (by decide)]
  | @started g rest trace last stand cursor ha hplan hstart h =>
      have hpull := h.endsWith (hs.walking ha hplan cursor) hrunning rfl
        (first ++ ⟨.note (s.planning rest), ()⟩ :: trace)
      have hlosses : losses (first ++ ⟨.note (s.planning rest), ()⟩ :: trace) = losses first := by
        simp [hstart.losses_eq_zero (by decide)]
      rcases hpull with ⟨hstarted, hrecovers, hsplit⟩
      rw [hlosses, List.append_assoc, List.cons_append] at hrecovers
      rw [List.append_assoc, List.cons_append] at hsplit
      exact ⟨hstarted, hrecovers, hsplit⟩

/-- What holds of a scan before a turn. Nothing is forsaken before there is a plan. -/
structure Keeps (forsaken : UInt32 → Prop) (s : Scan) : Prop where
  fresh : s.state = .notStarted → s.active = none ∧ ∀ n, ¬ forsaken n
  split : s.state = .running → Split forsaken s

theorem Keeps.launch {forsaken : UInt32 → Prop} {s : Scan} (h : Keeps forsaken s)
    (hstate : s.state = .notStarted) (t : Topology) : Split forsaken (s.launched t) := by
  rcases h.fresh hstate with ⟨hidle, hnone⟩
  exact (Split.replan hidle hnone t).of_completed rfl rfl fun _ hn => hn

theorem Takes.goesOn {forsaken : UInt32 → Prop} {s t : Scan} {trace : Trace}
    (hs : Keeps forsaken s) (h : Takes s trace (.done (.again t))) : GoesOn forsaken trace t := by
  cases h with
  | running hstate h => exact h.goesOn (hs.split hstate) hstate
  | @first u trace stand hstate h =>
      have hturn := h.goesOn (hs.launch hstate u) rfl
      exact ⟨hturn.running, by simpa using hturn.split⟩

theorem Takes.endsWith {forsaken : UInt32 → Prop} {s t : Scan} {trace : Trace} {r : PageResult}
    (hs : Keeps forsaken s) (h : Takes s trace (.done (.result r t))) (first : Trace) :
    EndsWith forsaken first trace r t := by
  cases h with
  | ended hstate =>
      refine .of_quiet ?_ (fun _ => not_givesUp_of_ok) rfl ?_
      · rw [hstate]
        simp
      · intro hrunning
        exact absurd (hstate.symm.trans hrunning) (by simp)
  | running hstate h => exact h.endsWith (hs.split hstate) hstate first
  | @first u trace stand hstate h =>
      have hturn := h.endsWith (hs.launch hstate u) rfl (first ++ [⟨.topology s.cache.key, u⟩])
      rcases hturn with ⟨hstarted, hrecovers, hsplit⟩
      rw [List.append_assoc] at hrecovers hsplit
      exact ⟨hstarted, by simpa using hrecovers, hsplit⟩

/-- When a turn ends the scan because nothing is left to do, all that is unfinished is
forsaken. -/
theorem Takes.forsaken_of_nothing {forsaken : UInt32 → Prop} {s t : Scan} {trace : Trace}
    (hs : Keeps forsaken s) (hstate : s.state ≠ .ended)
    (h : Takes s trace (.done (.result (.ok none) t))) :
    t.state = .ended ∧ ∀ n, t.Unfinished n → forsaken n := by
  have hproceeds {u : Scan} {last : Trace} (hu : Split forsaken u)
      (h : Proceeds u last (.done (.result (.ok none) t))) :
      t.state = .ended ∧ ∀ n, t.Unfinished n → forsaken n := by
    rcases h.exhausted_of_nothing with ⟨ha, hplan, rfl⟩
    exact ⟨rfl, fun n hn => hu.forsaken_of_exhausted ha hplan hn⟩
  cases h with
  | ended hover => exact absurd hover hstate
  | running hrunning h => exact hproceeds (hs.split hrunning) h
  | first hnew h => exact hproceeds (hs.launch hnew _) h

/-!
# Whole lives
-/

/-- What is forsaken in the middle of a call. -/
def ForsakenIn (history : List Called) (trace : Trace) (n : UInt32) : Prop :=
  Forsaken n history ∧ losses trace = 0

theorem keeps_enter {history : List Called} {s : Scan} (h : Keeps (Forsaken · history) s) :
    Keeps (ForsakenIn history []) s where
  fresh hstate := by
    rcases h.fresh hstate with ⟨hidle, hnone⟩
    exact ⟨hidle, fun n hforsaken => hnone n hforsaken.1⟩
  split hstate := (h.split hstate).congr fun _ => and_iff_left rfl

theorem keeps_again {history : List Called} {trace last : Trace} {s t : Scan}
    (hs : Keeps (ForsakenIn history trace) s) (hturn : Takes s last (.done (.again t))) :
    Keeps (ForsakenIn history (trace ++ last)) t := by
  have hon := hturn.goesOn hs
  constructor
  · intro hstate
    exact absurd (hon.running.symm.trans hstate) (by simp)
  · intro _
    apply hon.split.congr
    intro n
    unfold ForsakenIn
    rw [losses_append, Nat.add_eq_zero_iff, and_assoc]

theorem forsaken_returned {history : List Called} {trace last : Trace} {r : PageResult} {n : UInt32}
    (h : Called.Recovers ⟨trace ++ last, .returned r⟩ ↔ 0 < losses trace) :
    Forsaken n (history ++ [⟨trace ++ last, .returned r⟩]) ↔
      Called.Abandons ⟨trace ++ last, .returned r⟩ n ∨ ForsakenIn history trace n := by
  unfold Forsaken ForsakenIn
  rw [since_concat, h, Nat.not_lt, Nat.le_zero]
  rfl

theorem keeps_of_lives {cache : RemoteCache} {flags : Flags} {options : ScanOptions} {s : Scan}
    {history : List Called} (h : Lives { cache, flags, options } history s)
    (hreturns : ∀ c ∈ history, c.Returns) : Keeps (Forsaken · history) s := by
  refine h.preserves
    (fun history s => (∀ c ∈ history, c.Returns) → Keeps (Forsaken · history) s)
    (fun history trace s => (∀ c ∈ history, c.Returns) → Keeps (ForsakenIn history trace) s)
    ?_ ?_ ?_ ?_ ?_ hreturns
  · intro _
    exact ⟨fun _ => ⟨rfl, fun _ => not_since_nil⟩, fun hstate => by cases hstate⟩
  · intro history s hlife hs hreturns
    exact keeps_enter (hs hreturns)
  · intro history trace s last t hs hturn hreturns
    exact keeps_again (hs hreturns) hturn
  · intro history trace s last r t hs hturn hreturns
    rw [List.forall_mem_append] at hreturns
    have hend := hturn.endsWith (hs hreturns.1) trace
    constructor
    · intro hstate
      exact absurd hstate hend.started
    · intro hstate
      exact (hend.split hstate).congr fun _ => forsaken_returned hend.recovers
  · intro history trace s last q hs hturn hreturns
    rcases hreturns _ (List.mem_append_right _ (List.mem_singleton_self _)) with ⟨r, hr⟩
    cases hr

/-- In a running scan an unfinished segment belongs to no part exactly if it is forsaken. If
a call ends the scan because nothing is left to do, all that is unfinished is forsaken. -/
theorem uncovered_iff_forsaken {cache : RemoteCache} {flags : Flags} {options : ScanOptions}
    {s : Scan} {history : List Called} (h : Lives { cache, flags, options } history s)
    (hreturns : ∀ c ∈ history, c.Returns) :
    (s.state = .running → ∀ n, s.Unfinished n → (¬ s.Covers n ↔ Forsaken n history)) ∧
      ∀ (turns : Nat) (trace : Trace) (t : Scan), s.state ≠ .ended →
        Call.Reaches (nextPage turns s) trace (.done (some (.ok none), t)) →
          t.state = .ended ∧
            ∀ n, t.Unfinished n → Forsaken n (history ++ [⟨trace, .returned (.ok none)⟩]) := by
  have hkeeps := keeps_of_lives h hreturns
  constructor
  · intro hrunning n hn
    have hsplit := hkeeps.split hrunning
    rw [covers_iff_holders_pos]
    constructor
    · intro huncovered
      by_contra hkept
      have hheld := hsplit.held n hn hkept
      omega
    · intro hforsaken
      have hmissed := hsplit.missed n hn hforsaken
      omega
  · intro turns trace t hstate hcall
    rcases turns_of_reaches hcall with ⟨first, u, last, rfl, hturns, hcloses⟩
    cases hcloses with
    | result hturn =>
        have hbefore : Keeps (ForsakenIn history first) u ∧ u.state ≠ .ended := by
          refine hturns.preserves
            (fun trace u => Keeps (ForsakenIn history trace) u ∧ u.state ≠ .ended) ?_ []
            ⟨keeps_enter hkeeps, hstate⟩
          intro trace s last t hs hturn
          refine ⟨keeps_again hs.1 hturn, ?_⟩
          rw [(hturn.goesOn hs.1).running]
          simp
        have hend := hturn.forsaken_of_nothing hbefore.1 hbefore.2
        refine ⟨hend.1, fun n hn => ?_⟩
        rw [forsaken_returned (hturn.endsWith hbefore.1 first).recovers]
        exact Or.inr (hend.2 n hn)

/-- The node of an iteration is lost twice in a row, which is too often. -/
def twoLosses : Answers where
  topologies := []
  starts := [.completed (loneCursor "x"), .completed (loneCursor "y")]
  pages := [.retryConnectivity (.timeout "gone"), .retryConnectivity (.timeout "gone")]

/-- The life of a scan of one segment against two losses. -/
def lostLife (calls : Nat) : List Called × Scan × Answers :=
  played 5 (loneScan (some (.ofList [0]))) twoLosses calls

theorem uncovered_twoLosses :
    (lostLife 1).2.1.state = .running ∧ (lostLife 1).2.1.Unfinished 0 ∧
      ¬ (lostLife 1).2.1.Covers 0 ∧ Forsaken 0 (lostLife 1).1 ∧
        (lostLife 2).2.1.state = .ended ∧ (lostLife 2).2.1.Unfinished 0 := by
  have huncovered : ¬ (lostLife 1).2.1.Covers 0 := by
    rw [covers_iff_holders_pos]
    decide +kernel
  have hrunning : (lostLife 1).2.1.state ≠ .ended := by decide +kernel
  have hlife := uncovered_iff_forsaken (lives_played 5 (loneScan (some (.ofList [0]))) twoLosses 1)
    (returns_played 5 _ _ 1)
  have hcall : Call.Reaches (nextPage 5 (lostLife 1).2.1)
      ((nextPage 5 (lostLife 1).2.1).play Answers.answer (lostLife 1).2.2).1
      (.done (some (.ok none), (lostLife 2).2.1)) :=
    reaches_answered 5 (lostLife 1).2.1 (lostLife 1).2.2
  refine ⟨rfl, ⟨_, rfl, by decide⟩, huncovered, ?_, ?_, ⟨_, rfl, by decide⟩⟩
  · exact (hlife.1 rfl 0 ⟨_, rfl, by decide⟩).1 huncovered
  · exact (hlife.2 5 _ _ hrunning hcall).1

end Scan
end GridClient
