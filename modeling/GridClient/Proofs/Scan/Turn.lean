import GridClient.Proofs.Call.Request
import GridClient.Scan.Paging

/-!
# The turns of a scan

What one turn of a scan can do, exit by exit: what was asked and answered on the way,
and the scan that it leaves behind. Requests that only start or end an iteration appear
by their courses. All that is proved of scans goes through these cases.
-/

namespace GridClient
namespace Scan

abbrev Event : Type :=
  Call.Event Scan

abbrev Trace : Type :=
  Call.Trace Scan

abbrev Stand (α : Type) : Type :=
  Call.Stand Scan α

def idle (s : Scan) : Scan :=
  { s with active := none }

def interrupted (s : Scan) : Scan :=
  { s with failures := s.failures + 1 }

/-- The entries of a page that are new, and the scan that has taken the page in. -/
def takeIn (s : Scan) (page : Page) (group : Option SegmentSet) : List ScanEntry × Scan :=
  let (fresh, _, tracker) := track s.segmentCount s.tracker page.entries
  (fresh, { s with tracker := completeWithin group tracker page.finished })

/-- What is recorded of the entries of a page that are not new. -/
def repeats (s : Scan) (page : Page) : Trace :=
  let duplicates := (track s.segmentCount s.tracker page.entries).2.1
  if duplicates ≠ 0 then [⟨.record (.scanDuplicates duplicates), ()⟩] else []

def paged (s : Scan) (a : ActiveIteration) (page : Page) : Turn :=
  let (fresh, s) := takeIn { s with failures := 0 } page a.segments
  if fresh.isEmpty then .again s else .result (.ok (some fresh)) s

def drained (s : Scan) (a : ActiveIteration) (page : Page) : Scan :=
  (s.idle.takeIn page a.segments).2.completeGroup a.segments

@[simp] theorem active_idle (s : Scan) : s.idle.active = none :=
  rfl

/-- The last page of an iteration changes only the tracker. -/
theorem drained_eq (s : Scan) (a : ActiveIteration) (page : Page) :
    s.drained a page = { s.idle with tracker := (s.drained a page).tracker } := by
  unfold drained completeGroup
  split <;> rfl

@[simp] theorem active_drained (s : Scan) (a : ActiveIteration) (page : Page) :
    (s.drained a page).active = none := by
  rw [drained_eq]
  rfl

/-- The end of a call that has lost too many pages. -/
def givingUp (s : Scan) (cause : String) : PageResult :=
  .error (.topologyUnstable s.failures s!"scan interrupted by {cause}")

/-!
# Traces
-/

def pulledCursor : Operation .iterationNext → Cursor
  | .iterationNext c => c

def pullOf (s : Scan) (a : ActiveIteration) (t : Topology) (time : Instant) :
    Attempt .iterationNext :=
  ({ cache := s.cache, operation := .iterationNext a.cursor, flags := s.flags, topology := t } :
    Request .iterationNext).attempt t (.address a.cursor.address)
      (time + s.cache.config.requestTimeout)

def pulling (s : Scan) (t : Topology) (time : Instant) : Trace :=
  [⟨.note s, ()⟩, ⟨.topology s.cache.key, t⟩, ⟨.now, time⟩]

def pulled (s : Scan) (a : ActiveIteration) (t : Topology) (time : Instant) (o : Outcome Page) :
    Trace :=
  s.pulling t time ++ [⟨.attempt (s.pullOf a t time), o⟩]

/-- What is asked once a page has been lost. -/
def losing (s : Scan) (t : Topology) (cause : String) : Trace :=
  [⟨.topology s.cache.key, t⟩, ⟨.record (.retry OpCode.iterationNext.name cause), ()⟩]

/-- The scan carries out an operation: a request with it follows a course. -/
def CarriesOut {op : OpCode} (operation : Operation op) (trace : Trace)
    (stand : Stand (Except ClientError op.Reply)) : Prop :=
  ∃ r : Request op, r.operation = operation ∧ Call.Course r trace stand

theorem carriesOut_of_reaches {op : OpCode} (hop : op ≠ .ping) {s : Scan}
    {operation : Operation op} {trace : Trace} {stand : Stand (Except ClientError op.Reply)}
    (h : Call.Reaches (s.execute operation) trace stand) : CarriesOut operation trace stand := by
  unfold execute Request.bind deadline at h
  simp only [Program.bind_bind, Program.pure_bind] at h
  rw [Call.reaches_topology] at h
  rcases h with ⟨t, rest, rfl, h⟩
  rw [Call.reaches_now] at h
  rcases h with ⟨time, rest, rfl, h⟩
  refine ⟨_, rfl, .cons (Call.Event.vain_topology op _ _) (.cons ?_ (Call.course_of_reaches hop h))⟩
  exact ⟨trivial, by rintro ⟨a, reply, h⟩; cases h⟩

/-!
# Pages
-/

/-- How a pull of the iteration of a scan can go. -/
inductive Pulls (s : Scan) (a : ActiveIteration) : Trace → Stand Turn → Prop where
  | asking (t : Topology) (time : Instant) :
      Pulls s a (s.pulling t time) (.waiting (.attempt (s.pullOf a t time)))
  | page {t : Topology} {time : Instant} {page : Page} (hpage : page.isLast = false) :
      Pulls s a (s.pulled a t time (.completed page) ++ s.repeats page) (.done (s.paged a page))
  | drained {t : Topology} {time : Instant} {page : Page} {trace : Trace}
      {stand : Stand (Except ClientError Bool)} (hpage : page.isLast = true)
      (hend : CarriesOut (.iterationEnd a.cursor) trace stand) :
      Pulls s a (s.pulled a t time (.completed page) ++ ⟨.note (s.drained a page), ()⟩ :: trace)
        (stand.map fun _ => .again (s.drained a page))
  | changedTooOften {t u : Topology} {time : Instant}
      (hlimit : s.cache.retryLimit u < s.interrupted.failures) :
      Pulls s a (s.pulled a t time .retryTopology ++ s.losing u "topology")
        (.done (.result (s.interrupted.givingUp "topology") s.interrupted))
  | leaving {t u : Topology} {time : Instant} {trace : Trace} {q : Call.Ask Scan}
      (hlimit : s.interrupted.failures ≤ s.cache.retryLimit u)
      (hend : CarriesOut (.iterationEnd a.cursor) trace (.waiting q)) :
      Pulls s a
        (s.pulled a t time .retryTopology ++ s.losing u "topology" ++
          (⟨.note s.interrupted, ()⟩ :: ⟨.note s.interrupted.idle, ()⟩ :: trace))
        (.waiting q)
  | changed {t u v : Topology} {time : Instant} {trace : Trace} {r : Except ClientError Bool}
      (hlimit : s.interrupted.failures ≤ s.cache.retryLimit u)
      (hend : CarriesOut (.iterationEnd a.cursor) trace (.done r)) :
      Pulls s a
        (s.pulled a t time .retryTopology ++ s.losing u "topology" ++
          (⟨.note s.interrupted, ()⟩ :: ⟨.note s.interrupted.idle, ()⟩ :: trace ++
            [⟨.topology s.cache.key, v⟩]))
        (.done (.again (s.interrupted.idle.replan v)))
  | lostTooOften {t u : Topology} {time : Instant} {e : ClientError}
      (hlimit : s.cache.retryLimit u < s.interrupted.failures) :
      Pulls s a (s.pulled a t time (.retryConnectivity e) ++ s.losing u "connectivity")
        (.done (.result (s.interrupted.givingUp "connectivity") s.interrupted.idle))
  | refreshing {t u : Topology} {time later : Instant} {e : ClientError} {trace : Trace}
      {q : Call.Ask Scan} (hlimit : s.interrupted.failures ≤ s.cache.retryLimit u)
      (hping : Call.Reaches (s.cache.refresh (later + s.cache.config.requestTimeout)) trace
        (.waiting q)) :
      Pulls s a
        (s.pulled a t time (.retryConnectivity e) ++ s.losing u "connectivity" ++
          (⟨.note s.interrupted.idle, ()⟩ :: ⟨.now, later⟩ :: trace))
        (.waiting q)
  | lost {t u v : Topology} {time later : Instant} {e : ClientError} {trace : Trace}
      (hlimit : s.interrupted.failures ≤ s.cache.retryLimit u)
      (hping : Call.Reaches (s.cache.refresh (later + s.cache.config.requestTimeout)) trace
        (.done ())) :
      Pulls s a
        (s.pulled a t time (.retryConnectivity e) ++ s.losing u "connectivity" ++
          (⟨.note s.interrupted.idle, ()⟩ :: ⟨.now, later⟩ :: trace ++
            [⟨.topology s.cache.key, v⟩]))
        (.done (.again (s.interrupted.idle.replan v)))
  | failed {t : Topology} {time : Instant} {e : ClientError} {trace : Trace}
      {stand : Stand (Except ClientError Bool)}
      (hend : CarriesOut (.iterationEnd a.cursor) trace stand) :
      Pulls s a (s.pulled a t time (.failed e) ++ ⟨.note s.idle, ()⟩ :: trace)
        (stand.map fun _ => .result (.error e) { s.idle with state := .ended })

theorem reaches_accept {s : Scan} {page : Page} {group : Option SegmentSet}
    {f : List ScanEntry × Scan → Paging Turn} {trace : Trace} {stand : Stand Turn} :
    Call.Reaches (s.accept page group >>= f) trace stand ↔
      ∃ rest, trace = s.repeats page ++ rest ∧
        Call.Reaches (f (s.takeIn page group)) rest stand := by
  unfold accept repeats takeIn
  dsimp only
  split
  · simp only [Program.bind_bind, Program.pure_bind]
    rw [Call.reaches_record]
    rfl
  · simp only [Program.pure_bind, List.nil_append, exists_eq_left']

theorem reaches_endActive {s : Scan} {a : ActiveIteration} (ha : s.active = some a)
    {α : Type} {f : Scan → Paging α} {trace : Trace} {stand : Stand α}
    (h : Call.Reaches (s.endActive >>= f) trace stand) :
    ∃ rest, trace = ⟨.note s.idle, ()⟩ :: rest ∧
      ((∃ q, CarriesOut (.iterationEnd a.cursor) rest (.waiting q) ∧ stand = .waiting q) ∨
        ∃ first r last, rest = first ++ last ∧
          CarriesOut (.iterationEnd a.cursor) first (.done r) ∧
            Call.Reaches (f s.idle) last stand) := by
  unfold endActive at h
  rw [ha] at h
  simp only [Program.bind_bind, Program.pure_bind] at h
  rw [Call.reaches_note] at h
  rcases h with ⟨rest, rfl, h⟩
  refine ⟨rest, rfl, ?_⟩
  rcases Program.reaches_bind.1 h with ⟨q, hend, rfl⟩ | ⟨first, r, last, rfl, hend, hnext⟩
  · exact Or.inl ⟨q, carriesOut_of_reaches (by decide) hend, rfl⟩
  · exact Or.inr ⟨first, r, last, rfl, carriesOut_of_reaches (by decide) hend, hnext⟩

theorem pulls_of_last {s : Scan} {a : ActiveIteration} {t : Topology} {time : Instant}
    {page : Page} (hpage : page.isLast = true) {rest : Trace} {stand : Stand Turn}
    (h : Call.Reaches
      (do
        let (_, s) ← s.idle.accept page a.segments
        let s := s.completeGroup a.segments
        Call.note s
        let _ ← s.execute (.iterationEnd a.cursor)
        return Turn.again s) rest stand) :
    Pulls s a (s.pulled a t time (.completed page) ++ rest) stand := by
  have hentries : page.entries = [] := List.isEmpty_iff.1 hpage
  have hrepeats : s.idle.repeats page = [] := by simp [repeats, hentries, track]
  rw [reaches_accept, hrepeats] at h
  rcases h with ⟨rest, rfl, h⟩
  rw [Call.reaches_note] at h
  rcases h with ⟨rest, rfl, h⟩
  rcases Program.reaches_bind_pure.1 h with ⟨inner, hend, rfl⟩
  exact .drained hpage (carriesOut_of_reaches (by decide) hend)

theorem pulls_of_page {s : Scan} {a : ActiveIteration} {t : Topology} {time : Instant}
    {page : Page} (hpage : page.isLast = false) {rest : Trace} {stand : Stand Turn}
    (h : Call.Reaches
      (do
        let (fresh, s) ← accept { s with failures := 0 } page a.segments
        if fresh.isEmpty then return Turn.again s
        else return Turn.result (.ok (some fresh)) s) rest stand) :
    Pulls s a (s.pulled a t time (.completed page) ++ rest) stand := by
  rw [reaches_accept] at h
  rcases h with ⟨rest, rfl, h⟩
  have hturn : rest = [] ∧ stand = .done (s.paged a page) := by
    unfold paged
    dsimp only at h ⊢
    split at h
    · next hfresh =>
      rw [if_pos hfresh]
      exact Program.reaches_pure.1 h
    · next hfresh =>
      rw [if_neg hfresh]
      exact Program.reaches_pure.1 h
  rcases hturn with ⟨rfl, rfl⟩
  rw [List.append_nil]
  exact .page hpage

theorem pulls_of_change {s : Scan} {a : ActiveIteration} (ha : s.active = some a) {t : Topology}
    {time : Instant} {rest : Trace} {stand : Stand Turn}
    (h : Call.Reaches
      (do
        let after ← s.recover "topology" false
        return Turn.ofRecovery after) rest stand) :
    Pulls s a (s.pulled a t time .retryTopology ++ rest) stand := by
  unfold recover at h
  simp only [Program.bind_bind] at h
  rw [Call.reaches_topology] at h
  rcases h with ⟨u, rest, rfl, h⟩
  rw [Call.reaches_record] at h
  rcases h with ⟨rest, rfl, h⟩
  split at h
  · next hlimit =>
    rcases Program.reaches_pure.1 h with ⟨rfl, rfl⟩
    exact .changedTooOften hlimit
  · next hlimit =>
    simp only [Program.bind_bind] at h
    rw [Call.reaches_note] at h
    rcases h with ⟨rest, rfl, h⟩
    have hidle : s.interrupted.active = some a := ha
    rcases reaches_endActive hidle h with
      ⟨rest, rfl, ⟨q, hend, rfl⟩ | ⟨first, r, last, rfl, hend, hnext⟩⟩
    · exact .leaving (Nat.not_lt.1 hlimit) hend
    · rw [if_neg Bool.false_ne_true] at hnext
      simp only [Program.bind_bind] at hnext
      rcases Call.reaches_topology.1 hnext with ⟨v, rest, rfl, hlast⟩
      rcases Program.reaches_pure.1 hlast with ⟨rfl, rfl⟩
      exact .changed (Nat.not_lt.1 hlimit) hend

theorem pulls_of_loss {s : Scan} {a : ActiveIteration} {t : Topology} {time : Instant}
    {e : ClientError} {rest : Trace} {stand : Stand Turn}
    (h : Call.Reaches
      (do
        let after ← s.idle.recover "connectivity" true
        return Turn.ofRecovery after) rest stand) :
    Pulls s a (s.pulled a t time (.retryConnectivity e) ++ rest) stand := by
  unfold recover at h
  simp only [Program.bind_bind] at h
  rw [Call.reaches_topology] at h
  rcases h with ⟨u, rest, rfl, h⟩
  rw [Call.reaches_record] at h
  rcases h with ⟨rest, rfl, h⟩
  split at h
  · next hlimit =>
    rcases Program.reaches_pure.1 h with ⟨rfl, rfl⟩
    exact .lostTooOften hlimit
  · next hlimit =>
    unfold endActive Scan.deadline at h
    simp only [Program.bind_bind, Program.pure_bind, idle, if_true] at h
    rw [Call.reaches_note] at h
    rcases h with ⟨rest, rfl, h⟩
    rw [Call.reaches_now] at h
    rcases h with ⟨later, rest, rfl, h⟩
    rcases Program.reaches_bind.1 h with ⟨q, hping, rfl⟩ | ⟨first, _, last, rfl, hping, hnext⟩
    · exact .refreshing (Nat.not_lt.1 hlimit) hping
    · rcases Call.reaches_topology.1 hnext with ⟨v, rest, rfl, hlast⟩
      rcases Program.reaches_pure.1 hlast with ⟨rfl, rfl⟩
      exact .lost (Nat.not_lt.1 hlimit) hping

theorem pulls_of_failure {s : Scan} {a : ActiveIteration} (ha : s.active = some a) {t : Topology}
    {time : Instant} {e : ClientError} {rest : Trace} {stand : Stand Turn}
    (h : Call.Reaches
      (do
        let s ← s.endActive
        return Turn.result (.error e) { s with state := .ended }) rest stand) :
    Pulls s a (s.pulled a t time (.failed e) ++ rest) stand := by
  rcases reaches_endActive ha h with
    ⟨rest, rfl, ⟨q, hend, rfl⟩ | ⟨first, r, last, rfl, hend, hnext⟩⟩
  · exact (Pulls.failed hend :)
  · rcases Program.reaches_pure.1 hnext with ⟨rfl, rfl⟩
    rw [List.append_nil]
    exact (Pulls.failed hend :)

theorem pulls_of_reaches {s : Scan} {a : ActiveIteration} (ha : s.active = some a) {trace : Trace}
    {stand : Stand Turn} (h : Call.Reaches (s.pull a) trace stand) : Pulls s a trace stand := by
  unfold pull Request.bind Scan.deadline at h
  simp only [Program.bind_bind, Program.pure_bind] at h
  rw [Call.reaches_note] at h
  rcases h with ⟨rest, rfl, h⟩
  rw [Call.reaches_topology] at h
  rcases h with ⟨t, rest, rfl, h⟩
  rw [Call.reaches_now] at h
  rcases h with ⟨time, rest, rfl, h⟩
  rw [Call.reaches_attempt] at h
  rcases h with ⟨rfl, rfl⟩ | ⟨o, rest, rfl, h⟩
  · exact .asking t time
  · cases o with
    | completed page =>
        dsimp only at h
        split at h
        · next hpage => exact pulls_of_last hpage h
        · next hpage => exact pulls_of_page (Bool.not_eq_true _ ▸ hpage) h
    | retryTopology => exact pulls_of_change ha h
    | retryConnectivity e => exact pulls_of_loss h
    | failed e => exact pulls_of_failure ha h

/-!
# Turns
-/

/-- The scan that has taken a group off its plan. -/
def planning (s : Scan) (rest : List ScanGroup) : Scan :=
  { s with plan := rest }

/-- The scan that walks over a group it has taken off its plan. -/
def walking (s : Scan) (rest : List ScanGroup) (a : ActiveIteration) : Scan :=
  { s with plan := rest, active := some a }

/-- How a turn of a scan that is running can go. -/
inductive Proceeds (s : Scan) : Trace → Stand Turn → Prop where
  | pulls {a : ActiveIteration} {trace : Trace} {stand : Stand Turn} (ha : s.active = some a)
      (h : Pulls s a trace stand) : Proceeds s trace stand
  | exhausted (ha : s.active = none) (hplan : s.plan = []) :
      Proceeds s [] (.done (.result (.ok none) { s with state := .ended }))
  | starting {g : ScanGroup} {rest : List ScanGroup} {trace : Trace} {q : Call.Ask Scan}
      (ha : s.active = none) (hplan : s.plan = g :: rest)
      (hstart : CarriesOut (s.startOf g) trace (.waiting q)) :
      Proceeds s (⟨.note (s.planning rest), ()⟩ :: trace) (.waiting q)
  | refused {g : ScanGroup} {rest : List ScanGroup} {trace : Trace} {e : ClientError}
      (ha : s.active = none) (hplan : s.plan = g :: rest)
      (hstart : CarriesOut (s.startOf g) trace (.done (.error e))) :
      Proceeds s (⟨.note (s.planning rest), ()⟩ :: trace) (.done (.result (.error e) s))
  | started {g : ScanGroup} {rest : List ScanGroup} {trace last : Trace} {stand : Stand Turn}
      {cursor : Cursor} (ha : s.active = none) (hplan : s.plan = g :: rest)
      (hstart : CarriesOut (s.startOf g) trace (.done (.ok cursor)))
      (h : Pulls (s.walking rest ⟨cursor, g.segments⟩) ⟨cursor, g.segments⟩ last stand) :
      Proceeds s (⟨.note (s.planning rest), ()⟩ :: (trace ++ last)) stand

theorem proceeds_of_reaches {s : Scan} {trace : Trace} {stand : Stand Turn}
    (h : Call.Reaches s.proceed trace stand) : Proceeds s trace stand := by
  cases ha : s.active with
  | some a =>
      have hpull : s.proceed = s.pull a := by simp [proceed, ha]
      rw [hpull] at h
      exact .pulls ha (pulls_of_reaches ha h)
  | none =>
      cases hplan : s.plan with
      | nil =>
          have hend : s.proceed = return .result (.ok none) { s with state := .ended } := by
            simp [proceed, ha, hplan]
          rw [hend] at h
          rcases Program.reaches_pure.1 h with ⟨rfl, rfl⟩
          exact .exhausted ha hplan
      | cons g rest =>
          have hbegin : s.proceed = begin (s.planning rest) g := by
            simp [proceed, planning, ha, hplan]
          rw [hbegin] at h
          unfold begin at h
          rw [Call.reaches_note] at h
          rcases h with ⟨later, rfl, h⟩
          rcases Program.reaches_bind.1 h with
            ⟨q, hstart, rfl⟩ | ⟨first, r, last, rfl, hstart, hnext⟩
          · exact .starting ha hplan (carriesOut_of_reaches (by decide) hstart)
          · have hcourse := carriesOut_of_reaches (by decide) hstart
            cases r with
            | error e =>
                rcases Program.reaches_pure.1 hnext with ⟨rfl, rfl⟩
                rw [List.append_nil]
                have hback : s.planning (g :: rest) = s := by
                  rw [← hplan]
                  rfl
                change Proceeds s _ (.done (.result (.error e) (s.planning (g :: rest))))
                rw [hback]
                exact .refused ha hplan hcourse
            | ok cursor =>
                exact .started ha hplan hcourse (pulls_of_reaches rfl hnext)

/-- The scan that has made its first plan. -/
def launched (s : Scan) (t : Topology) : Scan :=
  { s.replan t with state := .running }

/-- How a turn of a scan can go. -/
inductive Takes (s : Scan) : Trace → Stand Turn → Prop where
  | ended (hstate : s.state = .ended) : Takes s [] (.done (.result (.ok none) s))
  | running {trace : Trace} {stand : Stand Turn} (hstate : s.state = .running)
      (h : Proceeds s trace stand) : Takes s trace stand
  | first {t : Topology} {trace : Trace} {stand : Stand Turn} (hstate : s.state = .notStarted)
      (h : Proceeds (s.launched t) trace stand) :
      Takes s (⟨.topology s.cache.key, t⟩ :: trace) stand

theorem takes_of_reaches {s : Scan} {trace : Trace} {stand : Stand Turn}
    (h : Call.Reaches s.turn trace stand) : Takes s trace stand := by
  unfold turn at h
  cases hstate : s.state with
  | ended =>
      simp only [hstate] at h
      rcases Program.reaches_pure.1 h with ⟨rfl, rfl⟩
      exact .ended hstate
  | running =>
      simp only [hstate] at h
      exact .running hstate (proceeds_of_reaches h)
  | notStarted =>
      simp only [hstate] at h
      rw [Call.reaches_topology] at h
      rcases h with ⟨t, rest, rfl, h⟩
      exact .first hstate (proceeds_of_reaches h)

end Scan
end GridClient
