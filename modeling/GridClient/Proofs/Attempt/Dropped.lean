import GridClient.Proofs.Attempt.Custody

/-!
# Dropped guards

Whoever holds a guard may be dropped at any time, also while a frame is being written or
read. The channel is then given back as the guard knows it. A guard knows of the writes and
reads that have come to their end; it does not know of a write that is still under way.
-/

namespace GridClient

open Exchange

namespace Exchange

/-- The writes and reads in a trace. -/
def uses (trace : Trace) : Trace :=
  trace.filter fun e => e.ask.guard?.isSome

end Exchange

namespace Guard

/-!
# Writing and reading through a guard
-/

def afterWrite (g : Guard) : Timely (Except String Unit) → Guard
  | .ready (.ok _) => g.sent
  | _ => g

def afterRead (g : Guard) : Timely (Except String Bytes) → Guard
  | .ready (.ok _) => g.received
  | _ => g

/-- Frames are written and read through a guard, which is left as another one. -/
inductive Used : Guard → Exchange.Trace → Guard → Prop where
  | unused (g : Guard) : Used g [] g
  | write {g g' : Guard} {frame : Bytes} {deadline : Instant}
      {answer : Timely (Except String Unit)} {rest : Exchange.Trace}
      (h : Used (g.afterWrite answer) rest g') :
      Used g (⟨.write g frame deadline, answer⟩ :: rest) g'
  | read {g g' : Guard} {limit : Limit} {answer : Timely (Except String Bytes)}
      {rest : Exchange.Trace} (h : Used (g.afterRead answer) rest g') :
      Used g (⟨.read g limit, answer⟩ :: rest) g'

/-- Writes and reads succeed, and no frame is written while a response is outstanding. -/
inductive Orderly : Nat → Exchange.Trace → Prop where
  | nil (n : Nat) : Orderly n []
  | write {g : Guard} {frame : Bytes} {deadline : Instant} {rest : Exchange.Trace}
      (h : Orderly 1 rest) : Orderly 0 (⟨.write g frame deadline, .ready (.ok ())⟩ :: rest)
  | read {g : Guard} {limit : Limit} {frame : Bytes} {n : Nat} {rest : Exchange.Trace}
      (h : Orderly (n - 1) rest) : Orderly n (⟨.read g limit, .ready (.ok frame)⟩ :: rest)

/-- What a holder is doing when it is dropped. -/
inductive Moment where
  | resting
  | writing (frame : Bytes)
  | reading
  deriving DecidableEq, Repr

/-- The frames that are being written. Some of a frame may have been sent. -/
def Moment.pending : Moment → Nat
  | writing _ => 1
  | _ => 0

variable {g g' : Guard} {trace : Exchange.Trace}

theorem Used.channel_eq (h : Used g trace g') : g'.channel = g.channel := by
  induction h with
  | unused g => rfl
  | @write g g' frame deadline answer rest h ih =>
      rw [ih]
      rcases answer with _ | ⟨reason | _⟩ <;> rfl
  | @read g g' limit answer rest h ih =>
      rw [ih]
      rcases answer with _ | ⟨reason | frame⟩ <;> rfl

/-- After the last frame was written no frame has been read. -/
def LastSent (trace : Exchange.Trace) : Prop :=
  ∃ before e after, trace = before ++ e :: after ∧ Sends e ∧ ∀ later ∈ after, ¬ Receives later

theorem lastSent_cons {e : Program.Event Answer} {rest : Exchange.Trace} :
    LastSent (e :: rest) ↔ (Sends e ∧ ∀ later ∈ rest, ¬ Receives later) ∨ LastSent rest := by
  constructor
  · intro hsent
    rcases hsent with ⟨before, x, after, hsplit, hx, hafter⟩
    rcases List.cons_eq_append_iff.1 hsplit with ⟨rfl, hcons⟩ | ⟨before, rfl, hrest⟩
    · cases hcons
      exact Or.inl ⟨hx, hafter⟩
    · exact Or.inr ⟨before, x, after, hrest, hx, hafter⟩
  · intro hsent
    rcases hsent with ⟨he, hrest⟩ | ⟨before, x, after, rfl, hx, hafter⟩
    · exact ⟨[], e, rest, rfl, he, hrest⟩
    · exact ⟨e :: before, x, after, rfl, hx, hafter⟩

theorem awaiting_afterWrite (g : Guard) (frame : Bytes) (deadline : Instant)
    (answer : Timely (Except String Unit)) :
    (g.afterWrite answer).awaiting = true ↔
      g.awaiting = true ∨ Sends ⟨.write g frame deadline, answer⟩ := by
  rcases answer with _ | ⟨reason | _⟩ <;> simp [afterWrite, sent, Sends]

theorem awaiting_afterRead (g : Guard) (limit : Limit) (answer : Timely (Except String Bytes)) :
    (g.afterRead answer).awaiting = true ↔
      g.awaiting = true ∧ ¬ Receives ⟨.read g limit, answer⟩ := by
  rcases answer with _ | ⟨reason | frame⟩ <;> simp [afterRead, received, Receives]

/-- A guard awaits a response if no frame has been read since one was written. -/
theorem Used.awaiting_iff (h : Used g trace g') :
    g'.awaiting = true ↔
      (g.awaiting = true ∧ ∀ e ∈ trace, ¬ Receives e) ∨ LastSent trace := by
  induction h with
  | unused g => simp [LastSent]
  | @write g g' frame deadline answer rest h ih =>
      rw [ih, lastSent_cons, List.forall_mem_cons, awaiting_afterWrite g frame deadline answer]
      have hwrite : ¬ Receives ⟨.write g frame deadline, answer⟩ := id
      simp only [hwrite, not_false_eq_true, true_and, or_and_right, or_assoc]
  | @read g g' limit answer rest h ih =>
      rw [ih, lastSent_cons, List.forall_mem_cons, awaiting_afterRead g limit answer]
      have hread : ¬ Sends ⟨.read g limit, answer⟩ := id
      simp only [hread, false_and, false_or, and_assoc]

/-- If all is in order, a guard awaits a response as long as there is one to be read. -/
theorem Used.foldl_backlog (h : Used g trace g') {n : Nat} (horderly : Orderly n trace)
    (hn : n = g.awaiting.toNat) : trace.foldl backlog n = g'.awaiting.toNat := by
  induction h generalizing n with
  | unused g => exact hn
  | write h ih =>
      cases horderly with
      | write hrest => exact ih hrest rfl
  | @read g g' limit answer rest h ih =>
      cases horderly with
      | read hrest =>
          refine ih hrest ?_
          rw [hn]
          cases g.awaiting <;> rfl

/-!
# What is given back
-/

/-- The only thing that is recorded of a dropped guard. -/
def dropRecord (g : Guard) : Measurement :=
  if g.awaiting then .discarded g.channel.node.text "abandoned" else .released g.channel.node.text

theorem reaches_drop {events : Exchange.Trace} {stand : Exchange.Stand Unit} :
    Exchange.Reaches g.drop events stand ↔
      events = [⟨.record g.dropRecord, ()⟩, ⟨.giveBack g.channel (!g.awaiting), ()⟩] ∧
        stand = .done () := by
  have hdrop : g.drop =
      Exchange.record g.dropRecord >>= fun _ => Exchange.giveBack g.channel (!g.awaiting) := by
    unfold drop dropRecord
    cases g.awaiting <;> rfl
  rw [hdrop]
  constructor
  · intro h
    rcases Exchange.reaches_at_once id h with ⟨_, rest, rfl, hgive⟩
    rcases Exchange.reaches_at_once id hgive with ⟨_, rest, rfl, hdone⟩
    rcases Program.reaches_done.1 hdone with ⟨rfl, rfl⟩
    exact ⟨rfl, rfl⟩
  · intro h
    rcases h with ⟨rfl, rfl⟩
    exact .answered _ (.answered _ (.done ()))

/-- A guard that is dropped gives its channel back exactly once, clean unless no frame has
been read since one was written. If all has been in order, a channel is given back clean with
a response outstanding on it exactly if a write is under way and nothing was outstanding
before. -/
theorem drop_clean_unread_iff {channel : Channel} {trace : Exchange.Trace} {g : Guard}
    (h : Used (.fresh channel) trace g) (moment : Moment) :
    (∀ events stand, Exchange.Reaches g.drop events stand ↔
      events = [⟨.record g.dropRecord, ()⟩, ⟨.giveBack channel (!g.awaiting), ()⟩] ∧
        stand = .done ()) ∧
      (g.awaiting = true ↔ LastSent trace) ∧
        (Orderly 0 trace →
          (g.awaiting = false ∧ 0 < unread trace + moment.pending ↔
            moment.pending = 1 ∧ unread trace = 0)) := by
  refine ⟨?_, ?_, ?_⟩
  · intro events stand
    have hchannel : g.channel = channel := h.channel_eq
    rw [← hchannel]
    exact reaches_drop
  · rw [h.awaiting_iff]
    exact or_iff_right fun hfresh => Bool.false_ne_true hfresh.1
  · intro horderly
    have hunread : unread trace = g.awaiting.toNat := h.foldl_backlog horderly rfl
    have hpending : moment.pending ≤ 1 := by
      cases moment <;> simp [Moment.pending]
    rw [hunread]
    cases g.awaiting with
    | true => simp
    | false =>
      simp only [Bool.toNat_false, true_and, and_true, Nat.zero_add]
      omega

/-- A channel on which a frame has been written and answered before the next write. -/
def reusedChannel : Channel where
  id := 1
  node := ⟨"a", 1⟩
  version := .v31

def reusedTrace : Exchange.Trace :=
  [⟨.write (.fresh reusedChannel) [1] 9, .ready (.ok ())⟩,
    ⟨.read (Guard.fresh reusedChannel).sent (.upTo 9), .ready (.ok [2])⟩]

theorem used_reusedTrace : Used (.fresh reusedChannel) reusedTrace (.fresh reusedChannel) :=
  .write (.read (.unused _))

theorem orderly_reusedTrace : Orderly 0 reusedTrace :=
  .write (.read (.nil 0))

theorem drop_clean_unread_reused :
    Used (.fresh reusedChannel) reusedTrace (.fresh reusedChannel) ∧ Orderly 0 reusedTrace ∧
      (∀ events stand, Exchange.Reaches (Guard.fresh reusedChannel).drop events stand ↔
        events = [⟨.record (dropRecord (.fresh reusedChannel)), ()⟩,
          ⟨.giveBack reusedChannel true, ()⟩] ∧ stand = .done ()) ∧
        ((Guard.fresh reusedChannel).awaiting = true ↔ LastSent reusedTrace) ∧
          (Guard.fresh reusedChannel).awaiting = false ∧
            0 < unread reusedTrace + (Moment.writing [3]).pending := by
  rcases drop_clean_unread_iff used_reusedTrace (.writing [3]) with ⟨hgiven, hawaiting, hunread⟩
  exact ⟨used_reusedTrace, orderly_reusedTrace, hgiven, hawaiting,
    (hunread orderly_reusedTrace).2 ⟨rfl, rfl⟩⟩

end Guard

/-!
# Attempts that are dropped
-/

theorem Exchange.uses_dealings (trace : Exchange.Trace) : uses (dealings trace) = uses trace := by
  unfold uses dealings
  rw [List.filter_filter]
  refine List.filter_congr fun e _ => ?_
  rcases e with ⟨q, answer⟩
  cases q <;> rfl

namespace Attempt

variable {op : OpCode} {a : Attempt op}

/-- While an attempt waits it has not been lent a channel, or it holds the guard of the one it
has been lent, through which all has been in order. The guard awaits a response unless the
frame is still being written. -/
theorem used_of_reaches {trace : Exchange.Trace} {q : Exchange.Ask}
    (h : Exchange.Reaches a.run trace (.waiting q)) :
    (q.guard? = none ∧ lendings trace = []) ∨
      ∃ channel g, q.guard? = some g ∧ lendings trace = [channel] ∧ returns trace = [] ∧
        Guard.Used (.fresh channel) (uses trace) g ∧ Guard.Orderly 0 (uses trace) ∧
          (g.awaiting = false ↔ q.frame?.isSome = true) := by
  have hcourse := course_of_reaches h
  rw [← lendings_dealings, ← returns_dealings, ← uses_dealings]
  generalize dealings trace = ds at hcourse
  generalize hstand : Program.Stand.waiting q = stand at hcourse
  cases hcourse with
  | acquiring id =>
      cases hstand
      exact Or.inl ⟨rfl, rfl⟩
  | unlent id => cases hstand
  | refused id e => cases hstand
  | @lent id channel ds stand husing =>
      refine Or.inr ⟨channel, ?_⟩
      cases husing with
      | writing =>
          cases hstand
          exact ⟨_, rfl, rfl, rfl, .unused _, .nil 0, iff_of_true rfl rfl⟩
      | reading =>
          cases hstand
          exact ⟨_, rfl, rfl, rfl, .write (.unused _), .write (.nil 1),
            iff_of_false Bool.noConfusion Bool.noConfusion⟩
      | unwritten => cases hstand
      | rebuffed reason => cases hstand
      | abandoned => cases hstand
      | lost reason => cases hstand
      | understood hreading => cases hstand
      | misread hreading => cases hstand

/-- What is left to the background holds a guard that awaits a response. -/
theorem used_of_drain {run : Exchange.Trace} {o : Outcome op.Reply} {r : LateResponse}
    (h : Exchange.Reaches a.run run (.done o)) (hdrain : ⟨.drain r, ()⟩ ∈ run) :
    ∃ channel, lendings run = [channel] ∧ returns run = [] ∧
      Guard.Used (.fresh channel) (uses run) r.guard ∧ r.guard.awaiting = true := by
  have hcourse := course_of_reaches h
  have hmem : ⟨.drain r, ()⟩ ∈ dealings run := mem_dealings.2 ⟨hdrain, rfl⟩
  rcases hcourse.using_of_mem hmem nofun nofun with ⟨id, channel, rest, hds, hrest, husing⟩
  refine ⟨channel, ?_⟩
  rw [← lendings_dealings, ← returns_dealings, ← uses_dealings, hds]
  generalize hstand : Program.Stand.done o = stand at husing
  cases husing with
  | writing => cases hstand
  | reading => cases hstand
  | unwritten => simp at hrest
  | rebuffed reason => simp at hrest
  | abandoned =>
      have hr : r = a.late id (Guard.fresh channel).sent := by simpa using hrest
      subst hr
      exact ⟨rfl, rfl, .write (.read (.unused _)), rfl⟩
  | lost reason => simp at hrest
  | understood hreading => simp [hreading.not_drain] at hrest
  | misread hreading => simp [hreading.not_drain] at hrest

end Attempt

/-- The wait for a late response has nothing to wait for but the response. -/
theorem LateResponse.eq_readAsk_of_reaches {r : LateResponse} {trace : Exchange.Trace}
    {q : Exchange.Ask} (h : Exchange.Reaches r.run trace (.waiting q)) :
    q = r.readAsk ∧ dealings trace = [] := by
  have hcourse := course_of_reaches h
  generalize dealings trace = ds at hcourse
  cases hcourse with
  | reading => exact ⟨rfl, rfl⟩

end GridClient
