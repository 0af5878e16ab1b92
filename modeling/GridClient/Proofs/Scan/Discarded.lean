import GridClient.Proofs.Program.History
import GridClient.Proofs.Scan.Losses
import GridClient.Proofs.Scan.Plan
import GridClient.Proofs.Scan.Played

/-!
# Pages that are thrown away

When the topology has changed, the answer to a pull is thrown away, but the server has
moved its cursor on. One more pull of that cursor skips the entries of the lost page. A
scan ends such a cursor, except where it gives up: then it keeps the cursor, and the next
call pulls it.
-/

namespace GridClient
namespace Scan

/-- What happens to the cursors of servers. A cursor is opened when an iteration starts; a
page is asked for; an answer is discarded. -/
inductive Happening where
  | opened (c : Cursor)
  | asked (c : Cursor)
  | discarded (c : Cursor)

def asking : Call.Ask Scan → List Happening
  | @Call.Ask.attempt _ .iterationNext a => [.asked (pulledCursor a.operation)]
  | _ => []

/-- An answer to a pull is discarded if it comes with a change of the topology. -/
def discarding (c : Cursor) : Outcome Page → List Happening
  | .retryTopology => [.discarded c]
  | _ => []

def answering : Event → List Happening
  | ⟨@Call.Ask.attempt _ .iterationStart _, .completed c⟩ => [.opened c]
  | ⟨@Call.Ask.attempt _ .iterationNext a, o⟩ => discarding (pulledCursor a.operation) o
  | _ => []

def happeningsIn (trace : Trace) : List Happening :=
  trace.flatMap fun e => asking e.ask ++ answering e

/-- What is under way when a call is dropped has been asked as well. -/
def Called.happenings (c : Called) : List Happening :=
  happeningsIn c.trace ++
    match c.ending with
    | .returned _ => []
    | .dropped q => asking q

def happenings (history : List Called) : List Happening :=
  history.flatMap Called.happenings

/-- An answer of the cursor has been discarded, and it has not been opened anew since. -/
def Burned (c : Cursor) (happened : List Happening) : Prop :=
  Since (fun x => x = .discarded c) (fun x => x = .opened c) happened

/-- A page of a cursor was asked for although an answer had been discarded. -/
def Skips (happened : List Happening) : Prop :=
  ∃ before c after, happened = before ++ .asked c :: after ∧ Burned c before

/-!
# Skipping
-/

theorem not_skips_nil : ¬ Skips [] := by
  intro hskips
  rcases hskips with ⟨before, c, after, h, -⟩
  simp at h

theorem skips_concat {happened : List Happening} {x : Happening} :
    Skips (happened ++ [x]) ↔ Skips happened ∨ ∃ c, x = .asked c ∧ Burned c happened := by
  constructor
  · intro hskips
    rcases hskips with ⟨before, c, after, h, hburned⟩
    rcases concat_eq_append_cons.1 h with ⟨rfl, rfl, -⟩ | ⟨middle, -, rfl⟩
    · exact Or.inr ⟨c, rfl, hburned⟩
    · exact Or.inl ⟨before, c, middle, rfl, hburned⟩
  · intro hskips
    rcases hskips with ⟨before, c, after, rfl, hburned⟩ | ⟨c, rfl, hburned⟩
    · exact ⟨before, c, after ++ [x], by simp, hburned⟩
    · exact ⟨happened, c, [], rfl, hburned⟩

theorem Skips.append {happened : List Happening} (h : Skips happened) (more : List Happening) :
    Skips (happened ++ more) := by
  rcases h with ⟨before, c, after, rfl, hburned⟩
  exact ⟨before, c, after ++ more, by simp, hburned⟩

theorem skips_of_burned {happened : List Happening} {c : Cursor} (h : Burned c happened)
    (more : List Happening) : Skips (happened ++ .asked c :: more) :=
  ⟨happened, c, more, rfl, h⟩

theorem burned_discarded (happened : List Happening) (c : Cursor) :
    Burned c (happened ++ [.discarded c]) :=
  since_concat.2 (Or.inl rfl)

theorem not_burned_opened (happened : List Happening) (c : Cursor) :
    ¬ Burned c (happened ++ [.opened c]) := by
  intro h
  rcases since_concat.1 h with h | ⟨-, h⟩
  · cases h
  · exact h rfl

theorem burned_asked {happened : List Happening} {b c : Cursor} :
    Burned b (happened ++ [.asked c]) ↔ Burned b happened := by
  unfold Burned
  rw [since_concat]
  simp

/-!
# What happens in a turn
-/

@[simp] theorem happeningsIn_nil : happeningsIn [] = [] :=
  rfl

@[simp] theorem happeningsIn_append (first last : Trace) :
    happeningsIn (first ++ last) = happeningsIn first ++ happeningsIn last :=
  List.flatMap_append

@[simp] theorem happeningsIn_note (s : Scan) (rest : Trace) :
    happeningsIn (⟨.note s, ()⟩ :: rest) = happeningsIn rest :=
  rfl

@[simp] theorem happeningsIn_now (time : Instant) (rest : Trace) :
    happeningsIn (⟨.now, time⟩ :: rest) = happeningsIn rest :=
  rfl

@[simp] theorem happeningsIn_topology (cache : Bytes) (t : Topology) (rest : Trace) :
    happeningsIn (⟨.topology cache, t⟩ :: rest) = happeningsIn rest :=
  rfl

@[simp] theorem happeningsIn_losing (s : Scan) (t : Topology) (cause : String) :
    happeningsIn (s.losing t cause) = [] :=
  rfl

@[simp] theorem happeningsIn_repeats (s : Scan) (page : Page) :
    happeningsIn (s.repeats page) = [] := by
  unfold repeats
  dsimp only
  split <;> rfl

@[simp] theorem happeningsIn_pulled (s : Scan) (a : ActiveIteration) (t : Topology)
    (time : Instant) (o : Outcome Page) :
    happeningsIn (s.pulled a t time o) = .asked a.cursor :: discarding a.cursor o := by
  cases o <;> rfl

theorem asking_of_serves {op : OpCode} (hop : op ≠ .iterationNext) {q : Call.Ask Scan}
    (h : q.Serves op) : asking q = [] := by
  cases q with
  | @attempt other a =>
      rcases h with rfl | rfl
      · cases other <;> first | rfl | exact absurd rfl hop
      · rfl
  | _ => rfl

theorem answering_of_vain {op : OpCode} (hop : op ≠ .iterationNext) {e : Event}
    (h : Call.Event.Vain op e) : answering e = [] := by
  rcases e with ⟨ask, answer⟩
  cases ask with
  | @attempt other a =>
      rcases h.serves with rfl | rfl
      · cases other
        case iterationNext => exact absurd rfl hop
        case iterationStart =>
            cases answer
            case completed c => exact absurd ⟨a, c, rfl⟩ h.incomplete
            all_goals rfl
        all_goals rfl
      · rfl
  | _ => rfl

theorem happeningsIn_of_vain {op : OpCode} (hop : op ≠ .iterationNext) {trace : Trace}
    (h : ∀ e ∈ trace, Call.Event.Vain op e) : happeningsIn trace = [] := by
  apply List.flatMap_eq_nil_iff.2
  intro e he
  rw [asking_of_serves hop (h e he).serves, answering_of_vain hop (h e he)]
  rfl

def pending {α : Type} : Stand α → List Happening
  | .done _ => []
  | .waiting q => asking q

/-- All that happens up to a stand. -/
def happensTo {α : Type} (trace : Trace) (stand : Stand α) : List Happening :=
  happeningsIn trace ++ pending stand

@[simp] theorem pending_done {α : Type} (a : α) : pending (.done a : Stand α) = [] :=
  rfl

@[simp] theorem pending_waiting {α : Type} (q : Call.Ask Scan) :
    pending (.waiting q : Stand α) = asking q :=
  rfl

@[simp] theorem pending_map {α β : Type} (f : α → β) (stand : Stand α) :
    pending (stand.map f) = pending stand := by
  cases stand <;> rfl

theorem happensTo_of_vain {op : OpCode} (hop : op ≠ .iterationNext) {α : Type} {trace : Trace}
    {stand : Stand α} (h : ∀ e ∈ trace, Call.Event.Vain op e)
    (hwait : ∀ q, stand = .waiting q → q.Serves op) : happensTo trace stand = [] := by
  unfold happensTo
  rw [happeningsIn_of_vain hop h]
  cases stand with
  | done a => rfl
  | waiting q => exact asking_of_serves hop (hwait q rfl)

/-- What happens while an iteration is started: its cursor is opened, if the start succeeds. -/
theorem happensTo_of_starting {operation : Operation .iterationStart} {trace : Trace}
    {stand : Stand (Except ClientError OpCode.iterationStart.Reply)}
    (h : CarriesOut operation trace stand) :
    (∃ c, stand = .done (.ok c) ∧ happensTo trace stand = [.opened c]) ∨
      ((∀ c, stand ≠ .done (.ok c)) ∧ happensTo trace stand = []) := by
  rcases h with ⟨r, -, hcourse⟩
  cases hcourse with
  | settled c hvain ha =>
      refine Or.inl ⟨c, rfl, ?_⟩
      unfold happensTo
      rw [happeningsIn_append, happeningsIn_of_vain (by decide) hvain]
      rfl
  | vain hvain hopen hwait =>
      exact Or.inr ⟨hopen, happensTo_of_vain (by decide) hvain hwait⟩

theorem happensTo_of_ending {operation : Operation .iterationEnd} {trace : Trace}
    {stand : Stand (Except ClientError OpCode.iterationEnd.Reply)}
    (h : CarriesOut operation trace stand) : happeningsIn trace = [] ∧ pending stand = [] := by
  rcases h with ⟨r, -, hcourse⟩
  refine List.append_eq_nil_iff.1 (?_ : happensTo trace stand = [])
  cases hcourse with
  | settled reply hvain ha =>
      unfold happensTo
      rw [happeningsIn_append, happeningsIn_of_vain (by decide) hvain]
      rfl
  | vain hvain hopen hwait => exact happensTo_of_vain (by decide) hvain hwait

theorem happensTo_of_refreshing {cache : RemoteCache} {deadline : Instant} {trace : Trace}
    {stand : Stand Unit} (h : Call.Reaches (cache.refresh deadline) trace stand) :
    happeningsIn trace = [] ∧ pending stand = [] := by
  have hvain := Call.vain_of_reaches_refresh .iterationEnd (by decide) h
  exact List.append_eq_nil_iff.1 (happensTo_of_vain (by decide) hvain.1 hvain.2)

/-- The turn ends the call, which gives up because of a change of the topology. -/
def GivesUpAt (trace : Trace) (stand : Stand Turn) : Prop :=
  ∃ r t, stand = .done (.result r t) ∧
    ∀ first, Called.GivesUp ⟨first ++ trace, .returned r⟩ "topology"

theorem Pulls.happens {s : Scan} {a : ActiveIteration} {trace : Trace} {stand : Stand Turn}
    (h : Pulls s a trace stand) :
    (happensTo trace stand = [.asked a.cursor] ∧
        ((s.leaves trace stand).active = none ∨ (s.leaves trace stand).active = s.active)) ∨
      (happensTo trace stand = [.asked a.cursor, .discarded a.cursor] ∧
        ((s.leaves trace stand).active = none ∨ GivesUpAt trace stand)) := by
  cases h with
  | asking t time => exact Or.inl ⟨rfl, Or.inr rfl⟩
  | page hpage =>
      refine Or.inl ⟨?_, Or.inr ?_⟩
      · simp [happensTo, pending, discarding]
      · unfold leaves paged
        dsimp only
        split <;> rfl
  | drained hpage hend =>
      refine Or.inl ⟨?_, Or.inl ?_⟩
      · simp [happensTo, discarding, happensTo_of_ending hend]
      · cases ‹Stand _› with
        | done r => exact active_drained s a _
        | waiting q => simp [afterNotes_of_serves hend.serves]
  | changedTooOften hlimit =>
      refine Or.inr ⟨rfl, Or.inr ⟨_, _, rfl, ?_⟩⟩
      intro first
      rw [← List.append_assoc]
      exact givesUp_of_losing _ s _ _ "topology"
  | @leaving t u time trace q hlimit hend =>
      rcases happensTo_of_ending hend with ⟨hquiet, hasks⟩
      rw [pending_waiting] at hasks
      refine Or.inr ⟨?_, Or.inl ?_⟩
      · simp [happensTo, discarding, hquiet, hasks]
      · simp [afterNotes_of_serves hend.serves]
  | changed hlimit hend =>
      rcases happensTo_of_ending hend with ⟨hquiet, -⟩
      refine Or.inr ⟨?_, Or.inl ?_⟩
      · simp [happensTo, discarding, hquiet]
      · exact (plans_replan _ _).active_eq
  | lostTooOften hlimit => exact Or.inl ⟨rfl, Or.inl rfl⟩
  | @refreshing t u time later e trace q hlimit hping =>
      rcases happensTo_of_refreshing hping with ⟨hquiet, hasks⟩
      rw [pending_waiting] at hasks
      have hvain := Call.vain_of_reaches_refresh .iterationNext (by decide) hping
      refine Or.inl ⟨?_, Or.inl ?_⟩
      · simp [happensTo, discarding, hquiet, hasks]
      · simp [afterNotes_of_serves fun e he => (hvain.1 e he).serves]
  | lost hlimit hping =>
      rcases happensTo_of_refreshing hping with ⟨hquiet, -⟩
      refine Or.inl ⟨?_, Or.inl ?_⟩
      · simp [happensTo, discarding, hquiet]
      · exact (plans_replan _ _).active_eq
  | failed hend =>
      rcases happensTo_of_ending hend with ⟨hquiet, hasks⟩
      refine Or.inl ⟨?_, Or.inl ?_⟩
      · simp [happensTo, discarding, hquiet, hasks]
      · cases ‹Stand _› with
        | done r => rfl
        | waiting q => simp [afterNotes_of_serves hend.serves]

/-!
# What a turn keeps
-/

/-- Nothing has been skipped, and the iteration that the scan holds may be pulled. -/
structure Sound (happened : List Happening) (s : Scan) : Prop where
  unskipped : ¬ Skips happened
  usable : ∀ a, s.active = some a → ¬ Burned a.cursor happened

/-- A turn skips nothing, and if the call does not give up, the next one may go on. -/
structure StaysSound (happened : List Happening) (s : Scan) (trace : Trace)
    (stand : Stand Turn) : Prop where
  unskipped : ¬ Skips (happened ++ happensTo trace stand)
  usable : GivesUpAt trace stand ∨
    ∀ a, (s.leaves trace stand).active = some a →
      ¬ Burned a.cursor (happened ++ happensTo trace stand)

theorem GivesUpAt.prepend {trace : Trace} {stand : Stand Turn} (h : GivesUpAt trace stand)
    (first : Trace) : GivesUpAt (first ++ trace) stand := by
  rcases h with ⟨r, t, hstand, hup⟩
  refine ⟨r, t, hstand, ?_⟩
  intro before
  rw [← List.append_assoc]
  exact hup (before ++ first)

theorem Pulls.staysSound {happened : List Happening} {s : Scan} {a : ActiveIteration}
    {trace : Trace} {stand : Stand Turn} (hs : Sound happened s) (ha : s.active = some a)
    (h : Pulls s a trace stand) : StaysSound happened s trace stand := by
  have hasked : ¬ Skips (happened ++ [.asked a.cursor]) := by
    intro hskips
    rcases skips_concat.1 hskips with hold | ⟨c, hc, hburned⟩
    · exact hs.unskipped hold
    · cases hc
      exact hs.usable a ha hburned
  rcases h.happens with ⟨hhappens, hactive⟩ | ⟨hhappens, hactive⟩
  · constructor
    · rw [hhappens]
      exact hasked
    · apply Or.inr
      intro b hb
      rw [hhappens, burned_asked]
      rcases hactive with hactive | hactive
      · rw [hactive] at hb
        cases hb
      · exact hs.usable b (hactive.symm.trans hb)
  · constructor
    · rw [hhappens, List.append_cons happened]
      intro hskips
      rcases skips_concat.1 hskips with hold | ⟨c, hc, -⟩
      · exact hasked hold
      · cases hc
    · rcases hactive with hactive | hup
      · apply Or.inr
        intro b hb
        rw [hactive] at hb
        cases hb
      · exact Or.inl hup

theorem staysSound_of_idle {happened : List Happening} {s : Scan} {trace : Trace}
    {stand : Stand Turn} (hs : ¬ Skips happened) (hquiet : happensTo trace stand = [])
    (hidle : (s.leaves trace stand).active = none) : StaysSound happened s trace stand := by
  refine ⟨by rwa [hquiet, List.append_nil], Or.inr ?_⟩
  intro a ha
  exact absurd (hidle.symm.trans ha) (by simp)

theorem Proceeds.staysSound {happened : List Happening} {s : Scan} {trace : Trace}
    {stand : Stand Turn} (hs : Sound happened s) (h : Proceeds s trace stand) :
    StaysSound happened s trace stand := by
  cases h with
  | pulls ha h => exact h.staysSound hs ha
  | exhausted ha hplan => exact staysSound_of_idle hs.unskipped rfl ha
  | @starting g rest trace q ha hplan hstart =>
      rcases happensTo_of_starting hstart with ⟨c, hc, -⟩ | ⟨-, hquiet⟩
      · cases hc
      · apply staysSound_of_idle hs.unskipped hquiet
        rw [leaves_waiting, afterNotes_note, afterNotes_of_serves hstart.serves]
        exact ha
  | refused ha hplan hstart =>
      rcases happensTo_of_starting hstart with ⟨c, hc, -⟩ | ⟨-, hquiet⟩
      · cases hc
      · exact staysSound_of_idle hs.unskipped hquiet ha
  | @started g rest trace last stand cursor ha hplan hstart h =>
      have hopened : happeningsIn trace = [.opened cursor] := by
        rcases happensTo_of_starting hstart with ⟨c, hc, hopened⟩ | ⟨hfailed, -⟩
        · cases hc
          simpa [happensTo] using hopened
        · exact absurd rfl (hfailed cursor)
      have hwalking : Sound (happened ++ [.opened cursor]) (s.walking rest ⟨cursor, g.segments⟩) := by
        constructor
        · intro hskips
          rcases skips_concat.1 hskips with hold | ⟨c, hc, -⟩
          · exact hs.unskipped hold
          · cases hc
        · intro a ha
          cases ha
          exact not_burned_opened happened cursor
      have hpull := h.staysSound hwalking rfl
      have hhappens : happensTo (⟨.note (s.planning rest), ()⟩ :: (trace ++ last)) stand =
          [.opened cursor] ++ happensTo last stand := by
        simp [happensTo, hopened]
      have hleaves := h.leaves_append s (⟨.note (s.planning rest), ()⟩ :: trace)
      rw [List.cons_append] at hleaves
      constructor
      · rw [hhappens, ← List.append_assoc]
        exact hpull.unskipped
      · rw [hhappens, ← List.append_assoc, hleaves]
        apply hpull.usable.imp_left
        intro hup
        exact hup.prepend (⟨.note (s.planning rest), ()⟩ :: trace)

theorem Takes.staysSound {happened : List Happening} {s : Scan} {trace : Trace}
    {stand : Stand Turn} (hs : Sound happened s) (h : Takes s trace stand) :
    StaysSound happened s trace stand := by
  cases h with
  | ended hstate =>
      constructor
      · simpa [happensTo] using hs.unskipped
      · exact Or.inr (by simpa [happensTo, Turn.scan] using hs.usable)
  | running hstate h => exact h.staysSound hs
  | @first t trace stand hstate h =>
      have hactive : (s.launched t).active = s.active := (plans_replan s t).active_eq
      have hlaunched : Sound happened (s.launched t) := by
        refine ⟨hs.unskipped, ?_⟩
        intro a ha
        exact hs.usable a (hactive.symm.trans ha)
      have hturn := h.staysSound hlaunched
      have hleaves := h.leaves_append s [⟨.topology s.cache.key, t⟩]
      refine ⟨hturn.unskipped, ?_⟩
      rw [List.singleton_append] at hleaves
      rw [hleaves]
      apply hturn.usable.imp_left
      intro hup
      exact hup.prepend [⟨.topology s.cache.key, t⟩]

/-!
# What a call that gives up leaves behind
-/

/-- The scan will pull a cursor that it must not pull. -/
def Stuck (happened : List Happening) (s : Scan) : Prop :=
  s.state = .running ∧ ∃ a, s.active = some a ∧ Burned a.cursor happened

theorem Stuck.skips {happened : List Happening} {s : Scan} {trace : Trace} {stand : Stand Turn}
    (hs : Stuck happened s) (h : Takes s trace stand) :
    Skips (happened ++ happensTo trace stand) := by
  rcases hs with ⟨hrunning, a, ha, hburned⟩
  cases h with
  | ended hstate => exact absurd (hstate.symm.trans hrunning) (by decide)
  | first hstate h => exact absurd (hstate.symm.trans hrunning) (by decide)
  | running hstate h =>
      cases h with
      | pulls hb h =>
          rcases Option.some_inj.1 (ha.symm.trans hb) with rfl
          rcases h.happens with ⟨hhappens, -⟩ | ⟨hhappens, -⟩ <;> rw [hhappens]
          · exact skips_of_burned hburned []
          · exact skips_of_burned hburned _
      | exhausted hidle hplan => exact absurd (ha.symm.trans hidle) (by simp)
      | starting hidle hplan hstart => exact absurd (ha.symm.trans hidle) (by simp)
      | refused hidle hplan hstart => exact absurd (ha.symm.trans hidle) (by simp)
      | started hidle hplan hstart h => exact absurd (ha.symm.trans hidle) (by simp)

theorem Pulls.stuck (happened : List Happening) {s t : Scan} {a : ActiveIteration}
    {trace : Trace} {r : PageResult} (hrunning : s.state = .running) (ha : s.active = some a)
    (h : Pulls s a trace (.done (.result r t))) {first : Trace}
    (hup : Called.GivesUp ⟨first ++ trace, .returned r⟩ "topology") :
    Stuck (happened ++ happeningsIn trace) t := by
  generalize hstand : (.done (.result r t) : Stand Turn) = stand at h
  cases h with
  | changedTooOften hlimit =>
      cases hstand
      refine ⟨hrunning, a, ha, ?_⟩
      rw [happeningsIn_append, happeningsIn_pulled, happeningsIn_losing, List.append_nil,
        List.append_cons happened]
      exact burned_discarded _ _
  | page hpage =>
      unfold paged at hstand
      dsimp only at hstand
      split at hstand
      · cases hstand
      · cases hstand
        exact absurd hup not_givesUp_of_ok
  | drained hpage hend => cases ‹Stand _› <;> cases hstand
  | lostTooOften hlimit =>
      cases hstand
      rw [← List.append_assoc] at hup
      exact absurd (hup.cause_eq (givesUp_of_losing _ s _ _ "connectivity")) (by decide)
  | failed hend =>
      cases ‹Stand _› <;> cases hstand
      rw [← List.append_assoc] at hup
      refine absurd hup (not_givesUp_of_note ?_)
      intro e he
      exact lossOf_of_serves (by decide) (hend.serves e he)
  | changed hlimit hend => cases hstand
  | lost hlimit hping => cases hstand
  | asking t time => cases hstand
  | leaving hlimit hend => cases hstand
  | refreshing hlimit hping => cases hstand

theorem Proceeds.stuck (happened : List Happening) {s t : Scan} {trace : Trace} {r : PageResult}
    (hrunning : s.state = .running) (h : Proceeds s trace (.done (.result r t))) {first : Trace}
    (hup : Called.GivesUp ⟨first ++ trace, .returned r⟩ "topology") :
    Stuck (happened ++ happeningsIn trace) t := by
  cases h with
  | pulls ha h => exact h.stuck happened hrunning ha hup
  | exhausted ha hplan => exact absurd hup not_givesUp_of_ok
  | refused ha hplan hstart =>
      refine absurd hup (not_givesUp_of_note ?_)
      intro e he
      exact lossOf_of_serves (by decide) (hstart.serves e he)
  | @started g rest trace last stand cursor ha hplan hstart h =>
      have hwalking : (s.walking rest ⟨cursor, g.segments⟩).state = .running := hrunning
      have hgave : Called.GivesUp
          ⟨(first ++ ⟨.note (s.planning rest), ()⟩ :: trace) ++ last, .returned r⟩ "topology" := by
        simpa using hup
      simpa using h.stuck (happened ++ happeningsIn trace) hwalking rfl hgave

theorem Takes.stuck (happened : List Happening) {s t : Scan} {trace : Trace} {r : PageResult}
    (h : Takes s trace (.done (.result r t))) {first : Trace}
    (hup : Called.GivesUp ⟨first ++ trace, .returned r⟩ "topology") :
    Stuck (happened ++ happeningsIn trace) t := by
  cases h with
  | ended hstate => exact absurd hup not_givesUp_of_ok
  | running hstate h => exact h.stuck happened hstate hup
  | @first u trace stand hstate h =>
      have hgave : Called.GivesUp
          ⟨(first ++ [⟨.topology s.cache.key, u⟩]) ++ trace, .returned r⟩ "topology" := by
        simpa using hup
      simpa using h.stuck happened rfl hgave

/-!
# Whole lives
-/

def Persists (history : List Called) : Prop :=
  ∀ c ∈ history, ¬ c.GivesUp "topology"

theorem persists_concat {history : List Called} {c : Called} :
    Persists (history ++ [c]) ↔ Persists history ∧ ¬ c.GivesUp "topology" := by
  unfold Persists
  rw [List.forall_mem_append]
  simp

/-- As long as no call gives up nothing is skipped; after one has, the next one skips. -/
structure Follows (history : List Called) (happened : List Happening) (s : Scan) : Prop where
  sound : Persists history → Sound happened s
  stuck : ¬ Persists history → Skips happened ∨ Stuck happened s

/-- What is known between calls. Only the last call may have given up without harm. -/
structure FollowsUp (history : List Called) (s : Scan) : Prop where
  follows : Follows history (happenings history) s
  unskipped : Persists history.dropLast → ¬ Skips (happenings history)
  skipped : ¬ Persists history.dropLast → Skips (happenings history)

theorem Follows.skips {history : List Called} {happened : List Happening} {s : Scan}
    (hs : Follows history happened s) (hgave : ¬ Persists history) {trace : Trace}
    {stand : Stand Turn} (h : Takes s trace stand) :
    Skips (happened ++ happensTo trace stand) := by
  rcases hs.stuck hgave with hskips | hstuck
  · exact hskips.append _
  · exact hstuck.skips h

theorem happenings_returned (history : List Called) (trace last : Trace) (r : PageResult)
    (turn : Turn) :
    happenings (history ++ [⟨trace ++ last, .returned r⟩]) =
      happenings history ++ happeningsIn trace ++ happensTo last (.done turn) := by
  simp [happenings, Called.happenings, happensTo]

theorem happenings_dropped (history : List Called) (trace last : Trace) (q : Call.Ask Scan) :
    happenings (history ++ [⟨trace ++ last, .dropped q⟩]) =
      happenings history ++ happeningsIn trace ++ happensTo last (.waiting q : Stand Turn) := by
  simp [happenings, Called.happenings, happensTo]

theorem Follows.close {history : List Called} {happened : List Happening} {s : Scan}
    (hs : Follows history happened s) {trace : Trace} {stand : Stand Turn}
    (hturn : Takes s trace stand) {c : Called}
    (hhappened : happenings (history ++ [c]) = happened ++ happensTo trace stand)
    (hgivesUp : GivesUpAt trace stand → c.GivesUp "topology")
    (hstuck : c.GivesUp "topology" →
      Stuck (happened ++ happensTo trace stand) (s.leaves trace stand)) :
    FollowsUp (history ++ [c]) (s.leaves trace stand) := by
  refine ⟨⟨?_, ?_⟩, ?_, ?_⟩
  · intro hpersists
    rw [persists_concat] at hpersists
    have hsound := hturn.staysSound (hs.sound hpersists.1)
    rw [hhappened]
    exact ⟨hsound.unskipped, hsound.usable.resolve_left fun hup => hpersists.2 (hgivesUp hup)⟩
  · intro hgave
    rw [hhappened]
    by_cases hpersists : Persists history
    · refine Or.inr (hstuck ?_)
      by_contra hnot
      exact hgave (persists_concat.2 ⟨hpersists, hnot⟩)
    · exact Or.inl (hs.skips hpersists hturn)
  · intro hpersists
    rw [List.dropLast_concat] at hpersists
    rw [hhappened]
    exact (hturn.staysSound (hs.sound hpersists)).unskipped
  · intro hgave
    rw [List.dropLast_concat] at hgave
    rw [hhappened]
    exact hs.skips hgave hturn

theorem followsUp_of_lives {start s : Scan} {history : List Called} (hstart : start.active = none)
    (h : Lives start history s) : FollowsUp history s := by
  refine h.preserves FollowsUp
    (fun history trace s => Follows history (happenings history ++ happeningsIn trace) s)
    ?_ ?_ ?_ ?_ ?_
  · have hpersists : Persists [] := by simp [Persists]
    have hsound : Sound (happenings []) start := ⟨not_skips_nil, by simp [hstart]⟩
    exact ⟨⟨fun _ => hsound, fun hgave => absurd hpersists hgave⟩, fun _ => hsound.unskipped,
      fun hgave => absurd hpersists hgave⟩
  · intro history s hlife hs
    rw [happeningsIn_nil, List.append_nil]
    exact hs.follows
  · intro history trace s last t hs hturn
    rw [happeningsIn_append, ← List.append_assoc]
    constructor
    · intro hpersists
      have hsound := hturn.staysSound (hs.sound hpersists)
      refine ⟨by simpa [happensTo] using hsound.unskipped, ?_⟩
      rcases hsound.usable with ⟨r, u, hstand, -⟩ | husable
      · cases hstand
      · simpa [happensTo, Turn.scan] using husable
    · intro hgave
      apply Or.inl
      simpa [happensTo] using hs.skips hgave hturn
  · intro history trace s last r t hs hturn
    refine hs.close hturn (happenings_returned history trace last r _) ?_ ?_
    · intro hup
      rcases hup with ⟨r', u, hstand, hup⟩
      cases hstand
      exact hup trace
    · intro hup
      rw [happensTo, pending_done, List.append_nil]
      exact hturn.stuck _ hup
  · intro history trace s last q hs hturn
    refine hs.close hturn (happenings_dropped history trace last q) ?_ ?_
    · intro hup
      rcases hup with ⟨r, u, hstand, -⟩
      cases hstand
    · intro hup
      rcases hup with ⟨⟨n, hended⟩, -⟩
      cases hended

/-- A page of a cursor whose answer has been thrown away is asked for in exactly those
lives in which a call follows one that has given up because of a change of the topology. -/
theorem skips_iff_givesUp {cache : RemoteCache} {flags : Flags} {options : ScanOptions} {s : Scan}
    {history : List Called} (h : Lives { cache, flags, options } history s) :
    Skips (happenings history) ↔ ∃ c ∈ history.dropLast, c.GivesUp "topology" := by
  have hfollows := followsUp_of_lives rfl h
  constructor
  · intro hskips
    by_contra hnone
    refine hfollows.unskipped ?_ hskips
    intro c hc hup
    exact hnone ⟨c, hc, hup⟩
  · intro hgivesUp
    rcases hgivesUp with ⟨c, hc, hup⟩
    apply hfollows.skipped
    intro hpersists
    exact hpersists c hc hup

/-- The topology changes twice in a row, which is too often; then there is a page. -/
def twoChanges : Answers where
  topologies := []
  starts := [.completed (loneCursor "x"), .completed (loneCursor "y")]
  pages := [.retryTopology, .retryTopology, .completed ⟨[], [loneEntry 1]⟩]

theorem skips_twoChanges :
    (∃ c ∈ (played 5 (loneScan none) twoChanges 2).1.dropLast, c.GivesUp "topology") ∧
      Skips (happenings (played 5 (loneScan none) twoChanges 2).1) := by
  have hup : ∃ c ∈ (played 5 (loneScan none) twoChanges 2).1.dropLast, c.GivesUp "topology" :=
    ⟨_, List.mem_cons_self, ⟨2, rfl⟩, rfl⟩
  exact ⟨hup, (skips_iff_givesUp (lives_played 5 _ _ 2)).2 hup⟩

end Scan
end GridClient
