import GridClient.Proofs.Scan.Turn

/-!
# The life of a scan

A scan lives through one call for a page after another. A call returns, or it is dropped
while it waits; then the scan goes on from the note that the call has left last. Whoever
answers may answer differently at every ask, so a life covers every behaviour of servers
and every change of the topology, also one brought about by other calls.
-/

namespace GridClient
namespace Scan

/-- How a call for a page has ended. -/
inductive Ending where
  | returned (r : PageResult)
  | dropped (q : Call.Ask Scan)

/-- A call for a page: what was asked and answered, and how it has ended. -/
structure Called where
  trace : Trace
  ending : Ending

def Called.Returns (c : Called) : Prop :=
  ∃ r, c.ending = .returned r

/-- The call has returned that nothing is left to deliver. -/
def Called.endsScan (c : Called) : Bool :=
  match c.ending with
  | .returned (.ok none) => true
  | _ => false

/-- The scan after something was asked: a note holds the whole scan. -/
def noted (s : Scan) (e : Event) : Scan :=
  match e.ask with
  | .note t => t
  | _ => s

def afterNotes (s : Scan) (trace : Trace) : Scan :=
  trace.foldl noted s

def Turn.scan : Turn → Scan
  | result _ s => s
  | again s => s

@[simp] theorem scan_again (s : Scan) : (Turn.again s).scan = s :=
  rfl

theorem scan_paged (s : Scan) (a : ActiveIteration) (page : Page) :
    (s.paged a page).scan = (takeIn { s with failures := 0 } page a.segments).2 := by
  unfold paged
  dsimp only
  split <;> rfl

/-- The scan that a turn leaves behind at a stand. -/
def leaves (s : Scan) (trace : Trace) : Stand Turn → Scan
  | .done turn => turn.scan
  | .waiting _ => s.afterNotes trace

/-- A scan has lived through a history of calls and has come to a state. -/
inductive Lives (start : Scan) : List Called → Scan → Prop where
  | fresh : Lives start [] start
  | page {history : List Called} {s t : Scan} {turns : Nat} {trace : Trace} {r : PageResult}
      (hlife : Lives start history s)
      (hcall : Call.Reaches (nextPage turns s) trace (.done (some r, t))) :
      Lives start (history ++ [⟨trace, .returned r⟩]) t
  | drop {history : List Called} {s : Scan} {turns : Nat} {trace : Trace} {q : Call.Ask Scan}
      (hlife : Lives start history s)
      (hcall : Call.Reaches (nextPage turns s) trace (.waiting q)) :
      Lives start (history ++ [⟨trace, .dropped q⟩]) (s.afterNotes trace)

/-!
# Notes
-/

@[simp] theorem afterNotes_append (s : Scan) (first last : Trace) :
    s.afterNotes (first ++ last) = (s.afterNotes first).afterNotes last :=
  List.foldl_append

@[simp] theorem afterNotes_note (s t : Scan) (rest : Trace) :
    s.afterNotes (⟨.note t, ()⟩ :: rest) = t.afterNotes rest :=
  rfl

@[simp] theorem afterNotes_now (s : Scan) (time : Instant) (rest : Trace) :
    s.afterNotes (⟨.now, time⟩ :: rest) = s.afterNotes rest :=
  rfl

theorem afterNotes_of_serves {op : OpCode} {trace : Trace}
    (h : ∀ e ∈ trace, e.ask.Serves op) (s : Scan) : s.afterNotes trace = s := by
  induction trace with
  | nil => rfl
  | cons e rest ih =>
      rw [List.forall_mem_cons] at h
      have hnoted : s.noted e = s := by
        rcases e with ⟨ask, answer⟩
        cases ask with
        | note t => exact absurd h.1 id
        | _ => rfl
      calc
        s.afterNotes (e :: rest) = (s.noted e).afterNotes rest := rfl
        _ = s := by rw [hnoted, ih h.2]

theorem CarriesOut.serves {op : OpCode} {operation : Operation op} {trace : Trace}
    {stand : Stand (Except ClientError op.Reply)} (h : CarriesOut operation trace stand) :
    ∀ e ∈ trace, e.ask.Serves op := by
  rcases h with ⟨r, _, hcourse⟩
  exact hcourse.serves

@[simp] theorem afterNotes_pulled (s t : Scan) (a : ActiveIteration) (u : Topology)
    (time : Instant) (o : Outcome Page) : t.afterNotes (s.pulled a u time o) = s :=
  rfl

theorem Pulls.afterNotes_eq {s : Scan} {a : ActiveIteration} {trace : Trace}
    {stand : Stand Turn} (h : Pulls s a trace stand) (t u : Scan) :
    t.afterNotes trace = u.afterNotes trace := by
  cases h <;> simp [pulling]

/-- A turn that waits has left a note, so what was noted before does not matter. -/
theorem Proceeds.afterNotes_eq {s : Scan} {trace : Trace} {q : Call.Ask Scan}
    (h : Proceeds s trace (.waiting q)) (t u : Scan) :
    t.afterNotes trace = u.afterNotes trace := by
  cases h with
  | pulls ha h => exact h.afterNotes_eq t u
  | starting ha hplan hstart => rfl
  | started ha hplan hstart h => rfl

theorem Takes.afterNotes_eq {s : Scan} {trace : Trace} {q : Call.Ask Scan}
    (h : Takes s trace (.waiting q)) (t u : Scan) :
    t.afterNotes trace = u.afterNotes trace := by
  cases h with
  | running hstate h => exact h.afterNotes_eq t u
  | first hstate h => exact h.afterNotes_eq t u

@[simp] theorem leaves_done (s : Scan) (trace : Trace) (turn : Turn) :
    s.leaves trace (.done turn) = turn.scan :=
  rfl

@[simp] theorem leaves_waiting (s : Scan) (trace : Trace) (q : Call.Ask Scan) :
    s.leaves trace (.waiting q) = s.afterNotes trace :=
  rfl

/-- What came before a pull does not matter to the scan that it leaves behind. -/
theorem Pulls.leaves_append {s : Scan} {a : ActiveIteration} {trace : Trace} {stand : Stand Turn}
    (h : Pulls s a trace stand) (t : Scan) (first : Trace) :
    t.leaves (first ++ trace) stand = s.leaves trace stand := by
  cases stand with
  | done turn => rfl
  | waiting q =>
      rw [leaves_waiting, leaves_waiting, afterNotes_append]
      exact h.afterNotes_eq _ _

theorem Proceeds.leaves_append {s : Scan} {trace : Trace} {stand : Stand Turn}
    (h : Proceeds s trace stand) (t : Scan) (first : Trace) :
    t.leaves (first ++ trace) stand = s.leaves trace stand := by
  cases stand with
  | done turn => rfl
  | waiting q =>
      rw [leaves_waiting, leaves_waiting, afterNotes_append]
      exact h.afterNotes_eq _ _

/-!
# The end of a scan
-/

/-- Only a scan without iteration and plan delivers nothing more. -/
theorem Proceeds.exhausted_of_nothing {s t : Scan} {trace : Trace}
    (h : Proceeds s trace (.done (.result (.ok none) t))) :
    s.active = none ∧ s.plan = [] ∧ t = { s with state := .ended } := by
  have hpull {u : Scan} {a : ActiveIteration} {last : Trace}
      (h : Pulls u a last (.done (.result (.ok none) t))) : False := by
    generalize hstand : (.done (.result (.ok none) t) : Stand Turn) = stand at h
    cases h with
    | page hpage =>
        unfold paged at hstand
        dsimp only at hstand
        split at hstand <;> cases hstand
    | drained hpage hend => cases ‹Stand _› <;> cases hstand
    | failed hend => cases ‹Stand _› <;> cases hstand
    | _ => cases hstand
  cases h with
  | pulls ha h => exact (hpull h).elim
  | exhausted ha hplan => exact ⟨ha, hplan, rfl⟩
  | started ha hplan hstart h => exact (hpull h).elim

theorem Takes.ended_of_nothing {s t : Scan} {trace : Trace}
    (h : Takes s trace (.done (.result (.ok none) t))) : t.state = .ended := by
  cases h with
  | ended hstate => exact hstate
  | running hstate h =>
      rcases h.exhausted_of_nothing with ⟨-, -, rfl⟩
      rfl
  | first hstate h =>
      rcases h.exhausted_of_nothing with ⟨-, -, rfl⟩
      rfl

/-!
# From turns to lives
-/

/-- Turns one after another, none of which ends the call. -/
inductive Turns : Scan → Trace → Scan → Prop where
  | none (s : Scan) : Turns s [] s
  | again {s t u : Scan} {trace rest : Trace} (hturn : Takes s trace (.done (.again t)))
      (hrest : Turns t rest u) : Turns s (trace ++ rest) u

/-- Where the last turn of a call for a page stands, if the call is not cut off before. -/
inductive Closes (s : Scan) : Trace → Stand (Option PageResult × Scan) → Prop where
  | result {trace : Trace} {r : PageResult} {t : Scan}
      (hturn : Takes s trace (.done (.result r t))) : Closes s trace (.done (some r, t))
  | waiting {trace : Trace} {q : Call.Ask Scan} (hturn : Takes s trace (.waiting q)) :
      Closes s trace (.waiting q)
  | cutOff : Closes s [] (.done (none, s))

theorem turns_of_reaches {turns : Nat} {s : Scan} {trace : Trace}
    {stand : Stand (Option PageResult × Scan)}
    (h : Call.Reaches (nextPage turns s) trace stand) :
    ∃ first t last, trace = first ++ last ∧ Turns s first t ∧ Closes t last stand := by
  induction turns generalizing s trace with
  | zero =>
      rcases Program.reaches_pure.1 h with ⟨rfl, rfl⟩
      exact ⟨[], s, [], rfl, .none s, .cutOff⟩
  | succ turns ih =>
      rw [nextPage] at h
      rcases Program.reaches_bind.1 h with ⟨q, hturn, rfl⟩ | ⟨first, r, last, rfl, hturn, hnext⟩
      · exact ⟨[], s, trace, rfl, .none s, .waiting (takes_of_reaches hturn)⟩
      · have htakes := takes_of_reaches hturn
        cases r with
        | result r t =>
            rcases Program.reaches_pure.1 hnext with ⟨rfl, rfl⟩
            exact ⟨[], s, first, by simp, .none s, .result htakes⟩
        | again t =>
            rcases ih hnext with ⟨middle, u, last, rfl, hturns, hcloses⟩
            exact ⟨first ++ middle, u, last, by simp, .again htakes hturns, hcloses⟩

theorem Turns.preserves {s t : Scan} {last : Trace} (h : Turns s last t)
    (within : Trace → Scan → Prop)
    (again : ∀ {trace s last t}, within trace s → Takes s last (.done (.again t)) →
      within (trace ++ last) t)
    (trace : Trace) (hs : within trace s) : within (trace ++ last) t := by
  induction h generalizing trace with
  | none s => simpa using hs
  | again hturn hrest ih =>
      rw [← List.append_assoc]
      exact ih _ (again hs hturn)

/-- What holds between the calls of a scan follows from what its single turns preserve:
`between` is about the calls made so far, `within` also about the trace of the call that
is under way. -/
theorem Lives.preserves {start s : Scan} {history : List Called} (h : Lives start history s)
    (between : List Called → Scan → Prop) (within : List Called → Trace → Scan → Prop)
    (fresh : between [] start)
    (enter : ∀ {history s}, Lives start history s → between history s → within history [] s)
    (again : ∀ {history trace s last t}, within history trace s →
      Takes s last (.done (.again t)) → within history (trace ++ last) t)
    (page : ∀ {history trace s last r t}, within history trace s →
      Takes s last (.done (.result r t)) → between (history ++ [⟨trace ++ last, .returned r⟩]) t)
    (drop : ∀ {history trace s last q}, within history trace s → Takes s last (.waiting q) →
      between (history ++ [⟨trace ++ last, .dropped q⟩]) (s.afterNotes last)) :
    between history s := by
  induction h with
  | fresh => exact fresh
  | page hlife hcall ih =>
      rcases turns_of_reaches hcall with ⟨first, u, last, rfl, hturns, hcloses⟩
      cases hcloses with
      | result hturn => exact page (hturns.preserves (within _) again [] (enter hlife ih)) hturn
  | drop hlife hcall ih =>
      rcases turns_of_reaches hcall with ⟨first, u, last, rfl, hturns, hcloses⟩
      cases hcloses with
      | waiting hturn =>
          rw [afterNotes_append, hturn.afterNotes_eq _ u]
          exact drop (hturns.preserves (within _) again [] (enter hlife ih)) hturn

theorem ended_of_lives {start s : Scan} {history : List Called} (h : Lives start history s)
    (hlast : history.getLast?.any Called.endsScan = true) : s.state = .ended := by
  refine h.preserves
    (fun history s => history.getLast?.any Called.endsScan = true → s.state = .ended)
    (fun _ _ _ => True) ?_ ?_ ?_ ?_ ?_ hlast
  · intro hends
    cases hends
  · intro history s hlife hs
    trivial
  · intro history trace s last t hs hturn
    trivial
  · intro history trace s last r t hs hturn hends
    rw [List.getLast?_concat] at hends
    cases r with
    | error e => cases hends
    | ok page =>
        cases page with
        | some entries => cases hends
        | none => exact hturn.ended_of_nothing
  · intro history trace s last q hs hturn hends
    rw [List.getLast?_concat] at hends
    cases hends

end Scan
end GridClient
