import GridClient.Proofs.Hash.Segment
import GridClient.Proofs.Scan.Once
import GridClient.Proofs.Scan.Server

/-!
# Scans are complete

If servers are faithful and agree on the number of segments, a scan whose calls all succeed
has delivered every wanted key by the time it delivers nothing more. Pages get lost, and
iterations are started again elsewhere; but what the scan takes for finished has been sent
on pages that it has taken in, and all else belongs to a part of its plan.
-/

namespace GridClient

theorem SegmentMap.count_of_length {m : SegmentMap} {count : UInt32}
    (h : m.owners.length = count.toNat) : m.count = count ∧ count ≠ 0 := by
  constructor
  · unfold SegmentMap.count
    rw [h]
    exact UInt32.ofNat_toNat
  · intro hzero
    apply m.nonempty
    rw [← List.length_eq_zero_iff, h, hzero]
    rfl

namespace Scan

/-- If the segments are known when the topology is read, there are `count` of them. -/
def MapsHave (count : UInt32) : Event → Prop
  | ⟨.topology _, t⟩ => ∀ m ∈ (t : Topology).segments, m.owners.length = count.toNat
  | _ => True

instance (count : UInt32) : DecidablePred (MapsHave count)
  | ⟨.topology _, t⟩ =>
      inferInstanceAs (Decidable (∀ m ∈ (t : Topology).segments, m.owners.length = count.toNat))
  | ⟨.now, _⟩ => .isTrue trivial
  | ⟨.record _, _⟩ => .isTrue trivial
  | ⟨.note _, _⟩ => .isTrue trivial
  | ⟨.attempt _, _⟩ => .isTrue trivial
  | ⟨.round _ _, _⟩ => .isTrue trivial

/-- What a scan believes is so. It has found the keys that it remembers and those of the
segments that it has completed, and the walk of its iteration has sent only keys that it has
found. -/
structure Accounts (content : List Bytes) (count : UInt32) (wanted : Option SegmentSet)
    (found : List Bytes) (walks : Walks) (s : Scan) : Prop where
  options : s.options.segments = wanted
  known : ∀ c, s.segmentCount = some c → c = count ∧ count ≠ 0
  seen : ∀ entry ∈ s.tracker.seen, entry.2 ∈ found
  completed : ∀ n ∈ s.tracker.completed, ∀ key ∈ content,
    Hash.segmentOf key count = n → key ∈ found
  active : ∀ a, s.active = some a →
    ∃ w, walks.get? a.cursor = some w ∧ w.segments = a.segments ∧ w.sent ⊆ found

/-- Every wanted key has been found or belongs to a part of the scan. -/
def Seeks (content : List Bytes) (count : UInt32) (wanted : Option SegmentSet)
    (found : List Bytes) (s : Scan) : Prop :=
  ∀ key ∈ content, covers wanted (Hash.segmentOf key count) = true →
    key ∈ found ∨ s.Covers (Hash.segmentOf key count)

section Accounts

variable {content : List Bytes} {count : UInt32} {wanted : Option SegmentSet}
  {found : List Bytes} {walks : Walks} {s : Scan}

/-!
# Pages
-/

namespace Accounts

/-- The keys of a page have been found before, or they are new. -/
theorem found_of_page (h : Accounts content count wanted found walks s) {page : Page} {w : Walk}
    (hpage : w.Sends content count page) {e : ScanEntry} (he : e ∈ page.entries) :
    e.key ∈ found ++ (track s.segmentCount s.tracker page.entries).1.map ScanEntry.key := by
  rw [List.mem_append]
  have htracks := tracks_track s.segmentCount s.tracker page.entries
  rcases htracks.mem_or_refuses he with ⟨f, hf, hkey⟩ | hrefused
  · exact Or.inr (List.mem_map.2 ⟨f, hf, hkey⟩)
  · apply Or.inl
    rcases Tracker.refuses_iff.1 hrefused with ⟨n, hn, hcomplete⟩ | hseen
    · unfold placeIn at hn
      rcases Option.map_eq_some_iff.1 hn with ⟨c, hc, hsegment⟩
      rw [(h.known c hc).1] at hsegment
      exact h.completed n hcomplete e.key (hpage.entries e he).1 hsegment
    · exact h.seen _ hseen

theorem sent_of_page (h : Accounts content count wanted found walks s) {page : Page} {w : Walk}
    (hpage : w.Sends content count page) (hsent : w.sent ⊆ found) :
    (w.after page).sent ⊆
      found ++ (track s.segmentCount s.tracker page.entries).1.map ScanEntry.key := by
  intro key hkey
  rcases List.mem_append.1 hkey with hold | hnew
  · exact List.mem_append_left _ (hsent hold)
  · rcases List.mem_map.1 hnew with ⟨e, he, rfl⟩
    exact h.found_of_page hpage he

theorem takeIn (h : Accounts content count wanted found walks s) {a : ActiveIteration}
    (ha : s.active = some a) {w : Walk} (hw : walks.get? a.cursor = some w) {page : Page}
    (hpage : w.Sends content count page) :
    Accounts content count wanted
      (found ++ (s.takeIn page a.segments).1.map ScanEntry.key)
      (walks.insert a.cursor (w.after page)) (s.takeIn page a.segments).2 := by
  rcases h.active a ha with ⟨w', hw', hsegments, hsent⟩
  cases hw.symm.trans hw'
  constructor
  · exact h.options
  · exact h.known
  · intro entry hentry
    have htracks := tracks_track s.segmentCount s.tracker page.entries
    rcases htracks.seen (Tracker.seen_completeAll_subset hentry) with ⟨e, he, hkey⟩ | hseen
    · rw [← hkey]
      exact List.mem_append_right _ (List.mem_map_of_mem he)
    · exact List.mem_append_left _ (h.seen entry hseen)
  · intro n hn key hkey hsegment
    rcases mem_completed_takeIn.1 hn with ⟨hfinished, hcovers⟩ | hcomplete
    · rw [← hsegments] at hcovers
      exact h.sent_of_page hpage hsent (hpage.finished n hfinished hcovers key hkey hsegment)
    · exact List.mem_append_left _ (h.completed n hcomplete key hkey hsegment)
  · intro b hb
    cases ha.symm.trans hb
    refine ⟨w.after page, ?_, hsegments, h.sent_of_page hpage hsent⟩
    rw [Table.get?_insert, if_pos rfl]

/-- With the last page of its iteration a scan has found all keys of the iteration. -/
theorem found_of_last (h : Accounts content count wanted found walks s) {a : ActiveIteration}
    (ha : s.active = some a) {w : Walk} (hw : walks.get? a.cursor = some w) {page : Page}
    (hpage : w.Sends content count page) (hlast : page.isLast = true) {key : Bytes}
    (hkey : key ∈ content) (hcovers : covers a.segments (Hash.segmentOf key count) = true) :
    key ∈ found := by
  rcases h.active a ha with ⟨w', hw', hsegments, hsent⟩
  cases hw.symm.trans hw'
  rw [← hsegments] at hcovers
  exact hsent (hpage.last hlast key hkey hcovers)

theorem drained (h : Accounts content count wanted found walks s) {a : ActiveIteration}
    (ha : s.active = some a) {w : Walk} (hw : walks.get? a.cursor = some w) {page : Page}
    (hpage : w.Sends content count page) (hlast : page.isLast = true) (other : Walks) :
    Accounts content count wanted found other (s.drained a page) := by
  have hentries : page.entries = [] := List.isEmpty_iff.1 hlast
  have htaken := h.takeIn ha hw hpage
  have hfresh : (s.takeIn page a.segments).1 = [] := by simp [Scan.takeIn, hentries, track]
  rw [hfresh, List.map_nil, List.append_nil] at htaken
  constructor
  · rw [drained_eq]
    exact h.options
  · rw [drained_eq]
    exact h.known
  · intro entry hentry
    have hsubset : (s.drained a page).tracker.seen ⊆ (s.takeIn page a.segments).2.tracker.seen :=
      seen_completeGroup_subset (s := (s.idle.takeIn page a.segments).2)
    exact htaken.seen entry (hsubset hentry)
  · intro n hn key hkey hsegment
    rcases mem_completed_completeGroup.1 hn with ⟨g, hg, hmem⟩ | hcomplete
    · apply h.found_of_last ha hw hpage hlast hkey
      rw [hg, hsegment]
      exact SegmentSet.contains_iff.2 hmem
    · exact htaken.completed n hcomplete key hkey hsegment
  · simp

/-!
# Plans
-/

theorem adopt (h : Accounts content count wanted found walks s) (hcount : count ≠ 0) :
    Accounts content count wanted found walks (s.adopt count) := by
  unfold Scan.adopt
  split
  · exact h
  · constructor
    · exact h.options
    · intro c hc
      cases hc
      exact ⟨rfl, hcount⟩
    · intro entry hentry
      rcases Tracker.seen_assign hentry with ⟨segment, hseen⟩
      exact h.seen (segment, entry.2) hseen
    · intro n hn
      rw [Tracker.completed_assign] at hn
      exact h.completed n hn
    · exact h.active

theorem of_plans (h : Accounts content count wanted found walks s) {t : Topology} {r : Scan}
    (hplans : Plans s t r) (hmaps : ∀ m ∈ t.segments, m.owners.length = count.toNat) :
    Accounts content count wanted found walks r := by
  cases hplans with
  | byOwner m hmap hcount =>
      rcases SegmentMap.count_of_length (hmaps m hmap) with ⟨rfl, hne⟩
      have hadopted := h.adopt hne
      exact ⟨hadopted.options, hadopted.known, hadopted.seen, hadopted.completed, hadopted.active⟩
  | loose => exact ⟨h.options, h.known, h.seen, h.completed, h.active⟩

theorem mem_requested (h : Accounts content count wanted found walks s) {key : Bytes}
    (hwanted : covers wanted (Hash.segmentOf key count) = true) {segments : SegmentSet}
    (hrequested : s.requested = some segments) : Hash.segmentOf key count ∈ segments := by
  unfold requested at hrequested
  split at hrequested
  · next options hoptions =>
    cases hrequested
    rw [← h.options, hoptions] at hwanted
    exact SegmentSet.contains_iff.1 hwanted
  · rcases Option.map_eq_some_iff.1 hrequested with ⟨c, hc, rfl⟩
    rcases h.known c hc with ⟨rfl, hne⟩
    exact SegmentSet.mem_below.2 (Hash.segmentOf_lt_count key hne)

end Accounts

/-- A new plan seeks all that has not been found. -/
theorem seeks_replan (h : Accounts content count wanted found walks s) (hidle : s.active = none)
    {t : Topology} (hmaps : ∀ m ∈ t.segments, m.owners.length = count.toNat) :
    Seeks content count wanted found (s.replan t) := by
  have hplans := plans_replan s t
  have hplanned := h.of_plans hplans hmaps
  intro key hkey hwanted
  by_cases hcomplete : Hash.segmentOf key count ∈ (s.replan t).tracker.completed
  · exact Or.inl (hplanned.completed _ hcomplete key hkey rfl)
  · apply Or.inr
    cases hrequested : (s.replan t).requested with
    | none =>
        refine ⟨none, ?_, rfl⟩
        rw [hplans.parts_eq hidle, hplans.plan_of_unknown hrequested]
        exact List.mem_singleton_self none
    | some segments =>
        have hunfinished : (s.replan t).Unfinished (Hash.segmentOf key count) :=
          unfinished_iff.2
            ⟨segments, hrequested, hplanned.mem_requested hwanted hrequested, hcomplete⟩
        rw [covers_iff_holders_pos, hplans.holders_eq_one hidle hunfinished]
        exact Nat.one_pos

theorem Seeks.mono (h : Seeks content count wanted found s) {more : List Bytes} {t : Scan}
    (hfound : found ⊆ more) (hparts : t.parts = s.parts) : Seeks content count wanted more t := by
  intro key hkey hwanted
  rcases h key hkey hwanted with hfoundKey | ⟨part, hpart, hcovers⟩
  · exact Or.inl (hfound hfoundKey)
  · rw [← hparts] at hpart
    exact Or.inr ⟨part, hpart, hcovers⟩

theorem Seeks.drained (hseeks : Seeks content count wanted found s)
    (h : Accounts content count wanted found walks s) {a : ActiveIteration}
    (ha : s.active = some a) {w : Walk} (hw : walks.get? a.cursor = some w) {page : Page}
    (hpage : w.Sends content count page) (hlast : page.isLast = true) :
    Seeks content count wanted found (s.drained a page) := by
  intro key hkey hwanted
  rcases hseeks key hkey hwanted with hfound | ⟨part, hpart, hcovers⟩
  · exact Or.inl hfound
  · unfold parts at hpart
    rw [ha, Option.toList_some, List.map_singleton, List.singleton_append] at hpart
    rcases List.mem_cons.1 hpart with rfl | hplanned
    · exact Or.inl (h.found_of_last ha hw hpage hlast hkey hcovers)
    · refine Or.inr ⟨part, ?_, hcovers⟩
      rw [drained_eq]
      exact hplanned

/-- A scan without iteration and plan has found all that it seeks. -/
theorem Seeks.found_of_exhausted (h : Seeks content count wanted found s) (ha : s.active = none)
    (hplan : s.plan = []) {key : Bytes} (hkey : key ∈ content)
    (hwanted : covers wanted (Hash.segmentOf key count) = true) : key ∈ found := by
  rcases h key hkey hwanted with hfound | ⟨part, hpart, -⟩
  · exact hfound
  · unfold parts at hpart
    rw [ha, hplan] at hpart
    cases hpart

/-!
# Turns
-/

/-- What holds of a scan in each of its states. -/
structure Reckons (content : List Bytes) (count : UInt32) (wanted : Option SegmentSet)
    (found : List Bytes) (walks : Walks) (s : Scan) : Prop where
  accounts : Accounts content count wanted found walks s
  fresh : s.state = .notStarted → s.active = none
  seeks : s.state = .running → Seeks content count wanted found s
  complete : s.state = .ended →
    ∀ key ∈ content, covers wanted (Hash.segmentOf key count) = true → key ∈ found

theorem Reckons.of_running (hrunning : s.state = .running)
    (haccounts : Accounts content count wanted found walks s)
    (hseeks : Seeks content count wanted found s) :
    Reckons content count wanted found walks s where
  accounts := haccounts
  fresh hstate := absurd (hrunning.symm.trans hstate) (by simp)
  seeks _ := hseeks
  complete hstate := absurd (hrunning.symm.trans hstate) (by simp)

def Turn.Succeeds : Turn → Prop
  | result (.error _) _ => False
  | _ => True

theorem Pulls.reckons {a : ActiveIteration} {trace : Trace} {turn : Turn} {after : Walks}
    (hrunning : s.state = .running) (hs : Accounts content count wanted found walks s)
    (hseeks : Seeks content count wanted found s) (ha : s.active = some a)
    (h : Pulls s a trace (.done turn)) (hserves : ServesAll content count walks trace after)
    (hmaps : ∀ e ∈ trace, MapsHave count e) (hsucceeds : turn.Succeeds) :
    Reckons content count wanted (found ++ turn.keys) after turn.scan := by
  have hreplanned (v : Topology) (hv : ∀ m ∈ v.segments, m.owners.length = count.toNat) :
      Reckons content count wanted found after (s.interrupted.idle.replan v) := by
    have hidle : Accounts content count wanted found after s.interrupted.idle :=
      ⟨hs.options, hs.known, hs.seen, hs.completed, by simp⟩
    refine .of_running ?_ (hidle.of_plans (plans_replan _ v) hv) (seeks_replan hidle rfl hv)
    rw [(plans_replan _ v).eq]
    exact hrunning
  generalize hstand : (.done turn : Stand Turn) = stand at h
  cases h with
  | @page t time page hpage =>
      cases hstand
      rcases servesAll_pulled.1 hserves with ⟨middle, ⟨w, hw, hsends, rfl⟩, hrest⟩
      have hpatient : Accounts content count wanted found walks { s with failures := 0 } :=
        ⟨hs.options, hs.known, hs.seen, hs.completed, hs.active⟩
      rw [servesAll_repeats.1 hrest, keys_paged]
      refine .of_running ?_ ?_ ?_
      · rw [scan_paged]
        exact hrunning
      · rw [scan_paged]
        exact hpatient.takeIn ha hw hsends
      · apply hseeks.mono (List.subset_append_left _ _)
        rw [scan_paged]
        rfl
  | @drained t time page trace stand hpage hend =>
      cases stand <;> cases hstand
      rcases servesAll_pulled.1 hserves with ⟨middle, ⟨w, hw, hsends, rfl⟩, hrest⟩
      refine .of_running ?_ ?_ ?_
      · rw [scan_again, drained_eq]
        exact hrunning
      · simpa using hs.drained ha hw hsends hpage after
      · simpa using hseeks.drained hs ha hw hsends hpage
  | @changed t u v time trace r hlimit hend =>
      cases hstand
      have hv := hmaps ⟨.topology s.cache.key, v⟩ (by simp)
      simpa using hreplanned v hv
  | @lost t u v time later e trace hlimit hping =>
      cases hstand
      have hv := hmaps ⟨.topology s.cache.key, v⟩ (by simp)
      simpa using hreplanned v hv
  | changedTooOften hlimit =>
      cases hstand
      exact hsucceeds.elim
  | lostTooOften hlimit =>
      cases hstand
      exact hsucceeds.elim
  | failed hend =>
      cases ‹Stand _› <;> cases hstand
      exact hsucceeds.elim
  | asking t time => cases hstand
  | leaving hlimit hend => cases hstand
  | refreshing hlimit hping => cases hstand

theorem Proceeds.reckons {trace : Trace} {turn : Turn} {after : Walks}
    (hrunning : s.state = .running) (hs : Accounts content count wanted found walks s)
    (hseeks : Seeks content count wanted found s) (h : Proceeds s trace (.done turn))
    (hserves : ServesAll content count walks trace after) (hmaps : ∀ e ∈ trace, MapsHave count e)
    (hsucceeds : turn.Succeeds) :
    Reckons content count wanted (found ++ turn.keys) after turn.scan := by
  cases h with
  | pulls ha h => exact h.reckons hrunning hs hseeks ha hserves hmaps hsucceeds
  | exhausted ha hplan =>
      rw [servesAll_nil.1 hserves, keys_nothing, List.append_nil]
      refine ⟨⟨hs.options, hs.known, hs.seen, hs.completed, hs.active⟩, ?_, ?_, ?_⟩
      · intro _
        exact ha
      · intro hstate
        cases hstate
      · intro _ key hkey hwanted
        exact hseeks.found_of_exhausted ha hplan hkey hwanted
  | refused ha hplan hstart => exact hsucceeds.elim
  | @started g rest trace last stand cursor ha hplan hstart h =>
      rw [servesAll_note] at hserves
      rcases servesAll_append.1 hserves with ⟨middle, hfirst, hlast⟩
      have hmiddle : middle = walks.insert cursor ⟨g.segments, []⟩ :=
        servesAll_of_started hstart hfirst
      have hopened : Accounts content count wanted found middle
          (s.walking rest ⟨cursor, g.segments⟩) := by
        refine ⟨hs.options, hs.known, hs.seen, hs.completed, ?_⟩
        intro a ha
        cases ha
        refine ⟨⟨g.segments, []⟩, ?_, rfl, List.nil_subset found⟩
        rw [hmiddle, Table.get?_insert, if_pos rfl]
      have hwalking : Seeks content count wanted found (s.walking rest ⟨cursor, g.segments⟩) :=
        hseeks.mono (List.Subset.refl found) (by simp [parts, walking, ha, hplan])
      refine h.reckons (s := s.walking rest ⟨cursor, g.segments⟩) hrunning hopened hwalking rfl
        hlast ?_ hsucceeds
      intro e he
      exact hmaps e (List.mem_cons_of_mem _ (List.mem_append_right trace he))

theorem Takes.reckons {trace : Trace} {turn : Turn} {after : Walks}
    (hs : Reckons content count wanted found walks s) (h : Takes s trace (.done turn))
    (hserves : ServesAll content count walks trace after) (hmaps : ∀ e ∈ trace, MapsHave count e)
    (hsucceeds : turn.Succeeds) :
    Reckons content count wanted (found ++ turn.keys) after turn.scan := by
  cases h with
  | ended hstate =>
      rw [servesAll_nil.1 hserves, keys_nothing, List.append_nil]
      exact hs
  | running hstate h => exact h.reckons hstate hs.accounts (hs.seeks hstate) hserves hmaps hsucceeds
  | @first t trace stand hstate h =>
      rw [servesAll_topology] at hserves
      rw [List.forall_mem_cons] at hmaps
      have hplanned := hs.accounts.of_plans (plans_replan s t) hmaps.1
      have hseeks := seeks_replan hs.accounts (hs.fresh hstate) hmaps.1
      have hlaunched : Accounts content count wanted found walks (s.launched t) :=
        ⟨hplanned.options, hplanned.known, hplanned.seen, hplanned.completed, hplanned.active⟩
      exact h.reckons rfl hlaunched (hseeks.mono (List.Subset.refl found) rfl) hserves hmaps.2
        hsucceeds

end Accounts

/-!
# Whole lives
-/

/-- Everything that was asked and answered, call after call. -/
def exchanges (history : List Called) : Trace :=
  history.flatMap Called.trace

def Called.succeeds (c : Called) : Bool :=
  match c.ending with
  | .returned (.ok _) => true
  | _ => false

theorem exchanges_concat (history : List Called) (c : Called) :
    exchanges (history ++ [c]) = exchanges history ++ c.trace := by
  simp [exchanges]

theorem reckons_of_lives {cache : RemoteCache} {flags : Flags} {options : ScanOptions} {s : Scan}
    {history : List Called} (h : Lives { cache, flags, options } history s)
    {content : List Bytes} {count : UInt32} {walks after : Walks}
    (hserves : ServesAll content count walks (exchanges history) after)
    (hmaps : ∀ e ∈ exchanges history, MapsHave count e) (hsucceeds : ∀ c ∈ history, c.succeeds) :
    Reckons content count options.segments (delivered history) after s := by
  refine h.preserves
    (fun history s =>
      ∀ after, ServesAll content count walks (exchanges history) after →
        (∀ e ∈ exchanges history, MapsHave count e) → (∀ c ∈ history, c.succeeds) →
          Reckons content count options.segments (delivered history) after s)
    (fun history trace s =>
      ∀ after, ServesAll content count walks (exchanges history ++ trace) after →
        (∀ e ∈ exchanges history ++ trace, MapsHave count e) → (∀ c ∈ history, c.succeeds) →
          Reckons content count options.segments (delivered history) after s)
    ?_ ?_ ?_ ?_ ?_ after hserves hmaps hsucceeds
  · intro after hserves hmaps hsucceeds
    refine ⟨⟨rfl, ?_, ?_, ?_, ?_⟩, ?_, ?_, ?_⟩
    · intro c hc
      cases hc
    · intro entry hentry
      cases hentry
    · intro n hn
      cases hn
    · intro a ha
      cases ha
    · intro _
      rfl
    · intro hstate
      cases hstate
    · intro hstate
      cases hstate
  · intro history s hlife hs after hserves hmaps hsucceeds
    rw [List.append_nil] at hserves hmaps
    exact hs after hserves hmaps hsucceeds
  · intro history trace s last t hs hturn after hserves hmaps hsucceeds
    rw [← List.append_assoc] at hserves hmaps
    rw [List.forall_mem_append] at hmaps
    rcases servesAll_append.1 hserves with ⟨middle, hfirst, hlast⟩
    have hturned := hturn.reckons (hs middle hfirst hmaps.1 hsucceeds) hlast hmaps.2 trivial
    simpa using hturned
  · intro history trace s last r t hs hturn after hserves hmaps hsucceeds
    rw [exchanges_concat, ← List.append_assoc] at hserves hmaps
    rw [List.forall_mem_append] at hmaps hsucceeds
    rcases servesAll_append.1 hserves with ⟨middle, hfirst, hlast⟩
    have hpage := hsucceeds.2 _ (List.mem_singleton_self _)
    rw [delivered_append]
    cases r with
    | error e => cases hpage
    | ok page => exact hturn.reckons (hs middle hfirst hmaps.1 hsucceeds.1) hlast hmaps.2 trivial
  · intro history trace s last q hs hturn after hserves hmaps hsucceeds
    have hpage := hsucceeds _ (List.mem_append_right _ (List.mem_singleton_self _))
    cases hpage

/-- Against faithful servers that agree on the number of segments, a scan all of whose calls
succeed has delivered every wanted key once a call delivers nothing more. -/
theorem delivered_complete {cache : RemoteCache} {flags : Flags} {options : ScanOptions} {s : Scan}
    {history : List Called} (h : Lives { cache, flags, options } history s)
    {content : List Bytes} {count : UInt32} {walks after : Walks}
    (hserves : ServesAll content count walks (exchanges history) after)
    (hmaps : ∀ e ∈ exchanges history, MapsHave count e) (hsucceeds : ∀ c ∈ history, c.succeeds)
    (hlast : history.getLast?.any Called.endsScan = true) :
    ∀ key ∈ content, covers options.segments (Hash.segmentOf key count) = true →
      key ∈ delivered history :=
  (reckons_of_lives h hserves hmaps hsucceeds).complete (ended_of_lives h hlast)

/-- A key arrives before the number of segments is known; the next page is lost to a change
of the topology, and a new iteration brings both keys. -/
def lostPage : Answers where
  topologies := [Answers.unheard, Answers.unheard, Answers.unheard, Answers.unheard, loneTopology]
  starts := [.completed (loneCursor "x"), .completed (loneCursor "y")]
  pages := [.completed ⟨[], [loneEntry 1]⟩, .retryTopology,
    .completed ⟨[0, 1], [loneEntry 1, loneEntry 2]⟩, .completed ⟨[], []⟩]

theorem delivered_complete_lostPage :
    delivered (played 5 (loneScan none) lostPage 3).1 = [[1], [2]] ∧
      ∀ key ∈ [[1], [2]], covers none (Hash.segmentOf key 2) = true →
        key ∈ delivered (played 5 (loneScan none) lostPage 3).1 := by
  have hserves : ServesAll [[1], [2]] 2 [] (exchanges (played 5 (loneScan none) lostPage 3).1)
      [(loneCursor "x", ⟨none, [[1]]⟩), (loneCursor "y", ⟨some (.below 2), [[1], [2]]⟩)] :=
    servesAll_of_serving (by decide +kernel)
  refine ⟨by decide +kernel, ?_⟩
  exact delivered_complete (lives_played 5 (loneScan none) lostPage 3) hserves
    (by decide +kernel) (by decide +kernel) (by decide +kernel)

end Scan
end GridClient
