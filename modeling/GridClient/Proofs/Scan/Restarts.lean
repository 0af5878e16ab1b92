import GridClient.Proofs.Scan.Interruptions
import GridClient.Proofs.Scan.Played

/-!
# Restarts

Between two interruptions a server may send a page that repeats what has been delivered. It
ends no call, but it restores the patience of the scan in full. So the retry limit bounds
the interruptions of a call only together with the number of its pages, and a server that
repeats itself can restart the iterations of one call as often as it likes.
-/

namespace GridClient
namespace Scan

/-!
# Runs that are answered as wanted
-/

/-- A program can be answered, under topologies that allow so many retries at most, such that
its pulls come out as listed and it ends with the value. -/
def Yields {α : Type} (limit : Nat) (cache : RemoteCache) (p : Paging α)
    (os : List (Outcome Page)) (a : α) : Prop :=
  ∃ trace, Call.Reaches p trace (.done a) ∧ outcomes trace = os ∧
    ∀ t ∈ Call.readings cache.key trace, cache.retryLimit t ≤ limit

namespace Yields

variable {α β : Type} {limit : Nat} {cache : RemoteCache} {p : Paging α} {f : α → Paging β}
  {os last : List (Outcome Page)} {a : α} {b : β}

theorem bind (hp : Yields limit cache p os a) (hf : Yields limit cache (f a) last b) :
    Yields limit cache (p >>= f) (os ++ last) b := by
  rcases hp with ⟨first, hfirst, rfl, hlimit⟩
  rcases hf with ⟨rest, hrest, rfl, hlater⟩
  refine ⟨first ++ rest, ?_, outcomes_append first rest, ?_⟩
  · exact Program.reaches_bind.2 (Or.inr ⟨first, a, rest, rfl, hfirst, hrest⟩)
  · rw [Call.readings_append, List.forall_mem_append]
    exact ⟨hlimit, hlater⟩

/-- Goes on after a program without pulls. -/
theorem silently (hp : Yields limit cache p [] a) (hf : Yields limit cache (f a) os b) :
    Yields limit cache (p >>= f) os b :=
  hp.bind hf

/-- Goes on without pulls. -/
theorem quietly (hp : Yields limit cache p os a) (hf : Yields limit cache (f a) [] b) :
    Yields limit cache (p >>= f) os b := by
  rw [← List.append_nil os]
  exact hp.bind hf

end Yields

variable {limit : Nat}

theorem yields_pure {α : Type} (cache : RemoteCache) (a : α) :
    Yields limit cache (pure a) [] a :=
  ⟨[], .done a, rfl, by simp⟩

theorem yields_note (cache : RemoteCache) (s : Scan) : Yields limit cache (Call.note s) [] () :=
  ⟨_, .answered () (.done ()), rfl, by simp⟩

theorem yields_record (cache : RemoteCache) (m : Measurement) :
    Yields limit cache (Call.record m) [] () :=
  ⟨_, .answered () (.done ()), rfl, by simp⟩

theorem yields_topology {cache : RemoteCache} {t : Topology} (ht : cache.retryLimit t ≤ limit) :
    Yields limit cache (Call.topology cache.key) [] t :=
  ⟨_, .answered t (.done t), rfl, by simpa⟩

theorem yields_deadline (s : Scan) :
    Yields limit s.cache s.deadline [] (0 + s.cache.config.requestTimeout) :=
  ⟨_, .answered (0 : Nat) (.done _), rfl, by simp⟩

theorem yields_bind {op : OpCode} (s : Scan) (operation : Operation op) {t : Topology}
    (ht : s.cache.retryLimit t ≤ limit) :
    Yields limit s.cache (Request.bind s.cache s.flags operation) []
      { cache := s.cache, operation, flags := s.flags, topology := t } :=
  (yields_topology ht).silently (yields_pure s.cache _)

theorem yields_pull (cache : RemoteCache) (a : Attempt .iterationNext) (o : Outcome Page) :
    Yields limit cache (Call.attempt a) [o] o :=
  ⟨_, .answered o (.done o), rfl, by simp⟩

/-- An operation other than a pull is carried out at the first attempt. -/
theorem yields_execute {op : OpCode} (hop : op ≠ .iterationNext) (s : Scan)
    (operation : Operation op) (reply : op.Reply) {t : Topology}
    (ht : s.cache.retryLimit t ≤ limit) :
    Yields limit s.cache (s.execute operation) [] (.ok reply) := by
  unfold execute
  refine (yields_bind s operation ht).silently ((yields_deadline s).silently ?_)
  refine ⟨_, Call.reaches_executeUntil _ _ reply, ?_, by simp⟩
  cases op <;> first | rfl | exact absurd rfl hop

theorem yields_endActive {s : Scan} {a : ActiveIteration} (ha : s.active = some a) {t : Topology}
    (ht : s.cache.retryLimit t ≤ limit) : Yields limit s.cache s.endActive [] s.idle := by
  unfold endActive
  rw [ha]
  refine (yields_note _ _).silently ?_
  exact (yields_execute (by decide) s.idle (.iterationEnd a.cursor) true ht).silently
    (yields_pure _ _)

theorem yields_accept (s : Scan) (page : Page) (group : Option SegmentSet) :
    Yields limit s.cache (s.accept page group) [] (s.takeIn page group) := by
  unfold accept takeIn
  dsimp only
  split
  · exact (yields_record _ _).silently (yields_pure _ _)
  · exact yields_pure _ _

/-!
# Pulls that come out as wanted
-/

section Pulls

variable {s : Scan} {a : ActiveIteration} {t : Topology}

theorem yields_paged (ht : s.cache.retryLimit t ≤ limit) {page : Page}
    (hpage : page.isLast = false) :
    Yields limit s.cache (s.pull a) [.completed page] (s.paged a page) := by
  unfold pull
  refine (yields_note _ _).silently ((yields_bind s _ ht).silently ?_)
  refine (yields_deadline s).silently ((yields_pull _ _ (.completed page)).quietly ?_)
  dsimp only
  rw [hpage, if_neg Bool.false_ne_true]
  refine (yields_accept _ page a.segments).silently ?_
  unfold paged
  dsimp only
  split
  · exact yields_pure _ _
  · exact yields_pure _ _

theorem yields_change (ha : s.active = some a) (ht : s.cache.retryLimit t ≤ limit)
    (hwithin : s.failures + 1 ≤ s.cache.retryLimit t) :
    Yields limit s.cache (s.pull a) [.retryTopology] (.again (s.interrupted.idle.replan t)) := by
  unfold pull
  refine (yields_note _ _).silently ((yields_bind s _ ht).silently ?_)
  refine (yields_deadline s).silently ((yields_pull _ _ .retryTopology).quietly ?_)
  refine Yields.silently (a := (.ok (), s.interrupted.idle.replan t)) ?_ (yields_pure _ _)
  unfold recover
  refine (yields_topology ht).silently ((yields_record _ _).silently ?_)
  rw [if_neg (Nat.not_lt.2 hwithin)]
  refine (yields_note _ _).silently ?_
  refine (yields_endActive (s := s.interrupted) ha ht).silently ?_
  rw [if_neg Bool.false_ne_true]
  exact (yields_topology ht).silently (yields_pure _ _)

theorem yields_givingUp (ht : s.cache.retryLimit t ≤ limit)
    (htoo : s.cache.retryLimit t < s.failures + 1) :
    Yields limit s.cache (s.pull a) [.retryTopology]
      (.result (s.interrupted.givingUp "topology") s.interrupted) := by
  unfold pull
  refine (yields_note _ _).silently ((yields_bind s _ ht).silently ?_)
  refine (yields_deadline s).silently ((yields_pull _ _ .retryTopology).quietly ?_)
  refine Yields.silently
    (a := (.error (.topologyUnstable s.interrupted.failures "scan interrupted by topology"),
      s.interrupted)) ?_ (yields_pure _ _)
  unfold recover
  refine (yields_topology ht).silently ((yields_record _ _).silently ?_)
  rw [if_pos htoo]
  exact yields_pure _ _

end Pulls

/-!
# Turns and calls that come out as wanted
-/

section Turns

variable {s : Scan} {os : List (Outcome Page)} {turn : Turn}

theorem yields_turn (hstate : s.state = .running) {a : ActiveIteration} (ha : s.active = some a)
    (h : Yields limit s.cache (s.pull a) os turn) : Yields limit s.cache s.turn os turn := by
  have hpull : s.turn = s.pull a := by simp [Scan.turn, hstate, proceed, ha]
  rwa [hpull]

theorem yields_proceed {g : ScanGroup} {rest : List ScanGroup} (ha : s.active = none)
    (hplan : s.plan = g :: rest) (cursor : Cursor) {t : Topology}
    (ht : s.cache.retryLimit t ≤ limit)
    (h : Yields limit s.cache
      ((s.walking rest ⟨cursor, g.segments⟩).pull ⟨cursor, g.segments⟩) os turn) :
    Yields limit s.cache s.proceed os turn := by
  have hbegin : s.proceed = begin (s.planning rest) g := by simp [proceed, planning, ha, hplan]
  rw [hbegin]
  unfold begin
  refine (yields_note _ _).silently ?_
  exact (yields_execute (by decide) (s.planning rest) (s.startOf g) cursor ht).silently h

variable {cache : RemoteCache}

theorem yields_nextPage_result {r : PageResult} {t : Scan}
    (h : Yields limit cache s.turn os (.result r t)) (turns : Nat) :
    Yields limit cache (nextPage (turns + 1) s) os (some r, t) := by
  rw [nextPage]
  exact h.quietly (yields_pure _ _)

theorem yields_nextPage_again {t : Scan} {turns : Nat} {last : List (Outcome Page)}
    {r : Option PageResult × Scan} (h : Yields limit cache s.turn os (.again t))
    (hnext : Yields limit cache (nextPage turns t) last r) :
    Yields limit cache (nextPage (turns + 1) s) (os ++ last) r := by
  rw [nextPage]
  exact h.bind hnext

end Turns

/-!
# A server that repeats itself
-/

/-- A new scan of a cache on the node that allows so many retries. -/
def patientScan (limit : Nat) : Scan where
  cache :=
    { name := "c", config := { maxRetries := limit }, intelligence := .hashDistributionAware }
  flags := .none
  options := {}

/-- A topology with enough servers for so many retries, without a segment map. -/
def crowd (limit : Nat) : Topology where
  epoch := 1
  intelligence := .hashDistributionAware
  servers := List.replicate limit loneNode
  segments := none

theorem retryLimit_crowd (hlimit : 0 < limit) :
    (patientScan limit).cache.retryLimit (crowd limit) = limit := by
  simp only [RemoteCache.retryLimit, patientScan, crowd, List.length_replicate]
  omega

def walkAll : ActiveIteration where
  cursor := loneCursor "x"
  segments := none

/-- The scan that has delivered one entry and walks on, after so many interruptions. -/
def walkingOn (limit n : Nat) : Scan :=
  { patientScan limit with
    tracker := { seen := [(none, [1])] }
    active := some walkAll
    state := .running
    failures := n }

/-- The same scan about to start its iteration anew. -/
def startingOver (limit n : Nat) : Scan :=
  { walkingOn limit n with
    plan := [{ target := none, segments := none }]
    active := none }

/-- The scan that has delivered one entry and been interrupted so many times since. -/
inductive Poised (limit n : Nat) : Scan → Prop where
  | walking : Poised limit n (walkingOn limit n)
  | starting : Poised limit n (startingOver limit n)

def repeatedPage : Page where
  finished := []
  entries := [loneEntry 1]

namespace Poised

variable {n : Nat} {s : Scan}

/-- What a pull yields is what the turn of a poised scan yields. -/
theorem yields_turn (h : Poised limit n s) (hlimit : 0 < limit) {os : List (Outcome Page)}
    {turn : Turn}
    (hpull : Yields limit (patientScan limit).cache ((walkingOn limit n).pull walkAll) os turn) :
    Yields limit (patientScan limit).cache s.turn os turn := by
  cases h with
  | walking => exact Scan.yields_turn (s := walkingOn limit n) rfl rfl hpull
  | starting =>
      exact yields_proceed (s := startingOver limit n) rfl rfl (loneCursor "x")
        (Nat.le_of_eq (retryLimit_crowd hlimit)) hpull

theorem again_interrupted (h : Poised limit n s) (hn : n < limit) :
    Yields limit (patientScan limit).cache s.turn [.retryTopology]
      (.again (startingOver limit (n + 1))) := by
  have hlimit := Nat.zero_lt_of_lt hn
  have hcrowd := retryLimit_crowd hlimit
  apply h.yields_turn hlimit
  apply yields_change (s := walkingOn limit n) (t := crowd limit) rfl (Nat.le_of_eq hcrowd)
  rw [← hcrowd] at hn
  exact hn

theorem again_repeated (h : Poised limit n s) (hlimit : 0 < limit) :
    Yields limit (patientScan limit).cache s.turn [.completed repeatedPage]
      (.again (walkingOn limit 0)) := by
  apply h.yields_turn hlimit
  exact yields_paged (s := walkingOn limit n) (Nat.le_of_eq (retryLimit_crowd hlimit)) rfl

theorem result_interrupted (h : Poised limit limit s) (hlimit : 0 < limit) :
    ∃ r t, Yields limit (patientScan limit).cache s.turn [.retryTopology] (.result r t) := by
  have hcrowd := retryLimit_crowd hlimit
  refine ⟨_, _, h.yields_turn hlimit (yields_givingUp (s := walkingOn limit limit)
    (Nat.le_of_eq hcrowd) ?_)⟩
  exact Nat.lt_succ_of_le (Nat.le_of_eq hcrowd)

end Poised

/-- A call of the scan can run to its end with so many pages and interruptions. -/
def CanEnd (limit : Nat) (s : Scan) (repeated interrupted : Nat) : Prop :=
  ∃ turns os r t, Yields limit (patientScan limit).cache (nextPage turns s) os (some r, t) ∧
    pages os = repeated ∧ interruptions os = interrupted

theorem CanEnd.again {s t : Scan} {o : Outcome Page} {repeated interrupted : Nat}
    (hturn : Yields limit (patientScan limit).cache s.turn [o] (.again t))
    (h : CanEnd limit t repeated interrupted) :
    CanEnd limit s (repeated + if bringsPage o then 1 else 0)
      (interrupted + if interrupts o then 1 else 0) := by
  rcases h with ⟨turns, os, r, u, hnext, rfl, rfl⟩
  exact ⟨turns + 1, o :: os, r, u, yields_nextPage_again hturn hnext, pages_cons o os,
    interruptions_cons o os⟩

/-- A scan whose patience is not used up can be interrupted as often as it has patience left
before it goes on like one whose patience is used up. -/
theorem Poised.canEnd_of_impatient {n left repeated interrupted : Nat} {s : Scan}
    (h : Poised limit n s) (hleft : n + left = limit)
    (hend : ∀ {t}, Poised limit limit t → CanEnd limit t repeated interrupted) :
    CanEnd limit s repeated (interrupted + left) := by
  induction left generalizing n s with
  | zero =>
      rw [Nat.add_zero] at hleft
      rw [hleft] at h
      exact hend h
  | succ left ih =>
      have hnext := ih (.starting : Poised limit (n + 1) _) (by omega)
      exact .again (h.again_interrupted (by omega)) hnext

/-- Every page that is repeated lets the scan be interrupted up to the limit once more. -/
theorem Poised.canEnd (hlimit : 0 < limit) (repeated : Nat) {n left : Nat} {s : Scan}
    (h : Poised limit n s) (hleft : n + left = limit) :
    CanEnd limit s repeated (limit * repeated + 1 + left) := by
  induction repeated generalizing n left s with
  | zero =>
      apply h.canEnd_of_impatient hleft
      intro t ht
      rcases ht.result_interrupted hlimit with ⟨r, u, hturn⟩
      rw [Nat.mul_zero]
      exact ⟨1, _, r, u, yields_nextPage_result hturn 0, rfl, rfl⟩
  | succ repeated ih =>
      apply h.canEnd_of_impatient hleft
      intro t ht
      have hnext := ih (.walking : Poised limit 0 _) (Nat.zero_add limit)
      have hagain := CanEnd.again (ht.again_repeated hlimit) hnext
      have hcount : limit * repeated + 1 + limit = limit * (repeated + 1) + 1 := by
        rw [Nat.mul_succ]
        omega
      rw [hcount] at hagain
      exact hagain

/-!
# The interruptions of a call
-/

/-- A call for a page in the life of a scan that reads only topologies which allow so many
retries at most: what was asked and answered, and where it stands. -/
inductive Calls (limit : Nat) : Trace → Stand (Option PageResult × Scan) → Prop where
  | page {cache : RemoteCache} {flags : Flags} {options : ScanOptions} {history : List Called}
      {s : Scan} {turns : Nat} {trace : Trace} {stand : Stand (Option PageResult × Scan)}
      (hlife : Lives { cache, flags, options } history s)
      (hcall : Call.Reaches (nextPage turns s) trace stand)
      (hlimit : ∀ t ∈ Call.readings s.cache.key trace, s.cache.retryLimit t ≤ limit) :
      Calls limit trace stand

/-- The first call of a patient scan delivers the entry that the server repeats later. -/
theorem lives_walkingOn (hlimit : 0 < limit) :
    ∃ history, Lives (patientScan limit) history (walkingOn limit 0) := by
  have hcrowd := Nat.le_of_eq (retryLimit_crowd hlimit)
  have hturn : Yields limit (patientScan limit).cache (patientScan limit).turn
      [.completed repeatedPage] (.result (.ok (some [loneEntry 1])) (walkingOn limit 0)) := by
    refine Yields.silently (yields_topology hcrowd) ?_
    apply yields_proceed (s := (patientScan limit).launched (crowd limit)) rfl rfl
      (loneCursor "x") hcrowd
    exact yields_paged (s := ((patientScan limit).launched (crowd limit)).walking [] walkAll)
      hcrowd rfl
  rcases yields_nextPage_result hturn 0 with ⟨trace, hcall, -⟩
  exact ⟨_, .page .fresh hcall⟩

theorem calls_of_pages (hlimit : 0 < limit) (n : Nat) :
    ∃ trace stand, Calls limit trace stand ∧ pages (outcomes trace) = n ∧
      interruptions (outcomes trace) = limit * (n + 1) + 1 := by
  rcases lives_walkingOn hlimit with ⟨history, hlife⟩
  have hpoised : Poised limit 0 (walkingOn limit 0) := .walking
  rcases hpoised.canEnd hlimit n (Nat.zero_add limit) with
    ⟨turns, os, r, t, ⟨trace, hcall, rfl, hreadings⟩, hpages, hcount⟩
  refine ⟨trace, _, .page hlife hcall hreadings, hpages, hcount.trans ?_⟩
  rw [Nat.mul_succ]
  omega

/-- The interruptions of a call are bounded by the limit for each of its pages and once more,
and by no less. Between two pages the limit holds: the call ends when it is exceeded. -/
theorem interruptions_le_iff (hlimit : 0 < limit) :
    (∀ trace stand, Calls limit trace stand → Stops limit trace stand) ∧
      ∀ n bound,
        (∀ trace stand, Calls limit trace stand → pages (outcomes trace) = n →
            interruptions (outcomes trace) ≤ bound) ↔
          limit * (n + 1) + 1 ≤ bound := by
  constructor
  · intro trace stand hcalls
    cases hcalls with
    | page hlife hcall hreadings => exact (withstands_of_reaches hcall hreadings).stops
  · intro n bound
    constructor
    · intro hbound
      rcases calls_of_pages hlimit n with ⟨trace, stand, hcalls, hpages, hcount⟩
      rw [← hcount]
      exact hbound trace stand hcalls hpages
    · intro hbound trace stand hcalls hpages
      cases hcalls with
      | page hlife hcall hreadings =>
          have hle := (withstands_of_reaches hcall hreadings).interruptions_le
          rw [hpages] at hle
          exact Nat.le_trans hle hbound

theorem interruptions_le_iff_one :
    0 < 1 ∧
      (∀ trace stand, Calls 1 trace stand → pages (outcomes trace) = 1 →
        interruptions (outcomes trace) ≤ 3) ∧
      ¬ ∀ trace stand, Calls 1 trace stand → pages (outcomes trace) = 1 →
        interruptions (outcomes trace) ≤ 2 := by
  have hbound := (interruptions_le_iff Nat.one_pos).2 1
  exact ⟨Nat.one_pos, (hbound 3).2 (by decide), fun h => absurd ((hbound 2).1 h) (by decide)⟩

end Scan
end GridClient
