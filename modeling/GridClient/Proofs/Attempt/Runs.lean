import GridClient.Proofs.Attempt.Numbers
import GridClient.Proofs.Attempt.Phases

/-!
# Whole runs

The dealings of an attempt leave out what it records. Here the runs of attempts that have come
to their outcome are listed in full, with the phases and measurements between the dealings, and
so are the runs of the waits for late responses.
-/

namespace GridClient

namespace Exchange

variable {α β : Type}

/-- A program that is done has had all its asks answered. -/
theorem reaches_answered_done {q : Ask} {f : Answer q → Exchange α} {trace : Trace} {b : α} :
    Reaches (.ask q f) trace (.done b) ↔
      ∃ answer rest, trace = ⟨q, answer⟩ :: rest ∧ Reaches (f answer) rest (.done b) := by
  rw [Reaches, Program.reaches_ask]
  exact or_iff_right nofun

/-- Measurements that are recorded one after the other. -/
def notes (ms : List Measurement) : Trace :=
  ms.map fun m => ⟨.record m, ()⟩

/-- What is asked when a channel is given back. -/
def releasing (channel : Channel) : Trace :=
  [⟨.record (.released channel.node.text), ()⟩, ⟨.giveBack channel true, ()⟩]

def discarding (channel : Channel) (reason : String) : Trace :=
  [⟨.record (.discarded channel.node.text reason), ()⟩, ⟨.giveBack channel false, ()⟩]

variable {trace : Trace} {b : β}

theorem reaches_enter {p : Phase} {f : Unit → Exchange β} :
    Reaches (enter p >>= f) trace (.done b) ↔
      ∃ rest, trace = ⟨.enter p, ()⟩ :: rest ∧ Reaches (f ()) rest (.done b) := by
  have h : Reaches (enter p >>= f) trace (.done b) ↔ _ :=
    reaches_answered_done (q := .enter p) (f := f)
  rw [h]
  exact ⟨fun ⟨_, hrun⟩ => hrun, fun hrun => ⟨(), hrun⟩⟩

theorem reaches_record {m : Measurement} {f : Unit → Exchange β} :
    Reaches (record m >>= f) trace (.done b) ↔
      ∃ rest, trace = ⟨.record m, ()⟩ :: rest ∧ Reaches (f ()) rest (.done b) := by
  have h : Reaches (record m >>= f) trace (.done b) ↔ _ :=
    reaches_answered_done (q := .record m) (f := f)
  rw [h]
  exact ⟨fun ⟨_, hrun⟩ => hrun, fun hrun => ⟨(), hrun⟩⟩

theorem reaches_giveBack {channel : Channel} {clean : Bool} {f : Unit → Exchange β} :
    Reaches (giveBack channel clean >>= f) trace (.done b) ↔
      ∃ rest, trace = ⟨.giveBack channel clean, ()⟩ :: rest ∧ Reaches (f ()) rest (.done b) := by
  have h : Reaches (giveBack channel clean >>= f) trace (.done b) ↔ _ :=
    reaches_answered_done (q := .giveBack channel clean) (f := f)
  rw [h]
  exact ⟨fun ⟨_, hrun⟩ => hrun, fun hrun => ⟨(), hrun⟩⟩

theorem reaches_release {g : Guard} {f : Unit → Exchange β} :
    Reaches (g.release >>= f) trace (.done b) ↔
      ∃ rest, trace = releasing g.channel ++ rest ∧ Reaches (f ()) rest (.done b) := by
  unfold Guard.release
  rw [Program.bind_bind, reaches_record]
  simp only [reaches_giveBack]
  constructor
  · rintro ⟨_, rfl, rest, rfl, h⟩
    exact ⟨rest, rfl, h⟩
  · rintro ⟨rest, rfl, h⟩
    exact ⟨_, rfl, rest, rfl, h⟩

theorem reaches_discard {g : Guard} {reason : String} {f : Unit → Exchange β} :
    Reaches (g.discard reason >>= f) trace (.done b) ↔
      ∃ rest, trace = discarding g.channel reason ++ rest ∧ Reaches (f ()) rest (.done b) := by
  unfold Guard.discard
  rw [Program.bind_bind, reaches_record]
  simp only [reaches_giveBack]
  constructor
  · rintro ⟨_, rfl, rest, rfl, h⟩
    exact ⟨rest, rfl, h⟩
  · rintro ⟨rest, rfl, h⟩
    exact ⟨_, rfl, rest, rfl, h⟩

end Exchange

namespace Attempt

open Exchange

variable {op : OpCode} {a : Attempt op} {id : UInt64} {channel : Channel}

/-!
# What is recorded of an outcome
-/

def failing (op : OpCode) (channel : Channel) (kind : String) : List Measurement :=
  [.duration op.name channel.node.text, .failure op.name channel.node.text kind]

def concluding {α : Type} (op : OpCode) (channel : Channel) : Outcome α → List Measurement
  | .completed _ =>
      [.duration op.name channel.node.text, .success op.name channel.node.text]
  | .retryTopology => failing op channel "topology_changed"
  | .retryConnectivity e => failing op channel e.kind
  | .failed e => failing op channel e.kind

variable {β : Type} {f : Unit → Exchange β} {trace : Exchange.Trace} {b : β}

theorem reaches_two_records {first second : Measurement} :
    Exchange.Reaches (record first >>= fun _ => record second >>= f) trace (.done b) ↔
      ∃ rest, trace = notes [first, second] ++ rest ∧
        Exchange.Reaches (f ()) rest (.done b) := by
  simp only [reaches_record]
  constructor
  · rintro ⟨_, rfl, rest, rfl, h⟩
    exact ⟨rest, rfl, h⟩
  · rintro ⟨rest, rfl, h⟩
    exact ⟨_, rfl, rest, rfl, h⟩

theorem reaches_recordFailure {kind : String} :
    Exchange.Reaches (recordFailure op channel kind >>= f) trace (.done b) ↔
      ∃ rest, trace = notes (failing op channel kind) ++ rest ∧
        Exchange.Reaches (f ()) rest (.done b) := by
  unfold recordFailure
  rw [Program.bind_bind]
  exact reaches_two_records

theorem reaches_recordOutcome {α : Type} {o : Outcome α} :
    Exchange.Reaches (recordOutcome op channel o >>= f) trace (.done b) ↔
      ∃ rest, trace = notes (concluding op channel o) ++ rest ∧
        Exchange.Reaches (f ()) rest (.done b) := by
  cases o with
  | completed reply =>
      unfold recordOutcome recordSuccess
      rw [Program.bind_bind]
      exact reaches_two_records
  | retryTopology => exact reaches_recordFailure
  | retryConnectivity e => exact reaches_recordFailure
  | failed e => exact reaches_recordFailure

/-!
# Runs with a channel
-/

/-- What is asked up to the writing of the request. -/
def opening (a : Attempt op) (id : UInt64) (channel : Channel) : Exchange.Trace :=
  [⟨.messageId, id⟩, ⟨.acquire a.target a.deadline, .ready (.ok channel)⟩,
    ⟨.enter .channelAcquired, ()⟩]

/-- What is asked from there up to the wait for the response. -/
def sending (a : Attempt op) (id : UInt64) (channel : Channel) : Exchange.Trace :=
  [⟨a.writeAsk id channel, .ready (.ok ())⟩, ⟨.enter .sent, ()⟩, ⟨.enter .awaitingResponse, ()⟩]

/-- The runs of an attempt from the moment when it has been lent a channel to its outcome. -/
inductive Spends (a : Attempt op) (id : UInt64) (channel : Channel) :
    Exchange.Trace → Outcome op.Reply → Prop where
  | unwritten :
      Spends a id channel
        (⟨a.writeAsk id channel, .late⟩ :: ⟨.enter .abandoned, ()⟩ ::
          ⟨.record (.abandoned op.name), ()⟩ ::
            (notes (failing op channel "timeout") ++ discarding channel "write timed out"))
        (.failed (a.overrun .writing))
  | rebuffed (reason : String) :
      Spends a id channel
        (⟨a.writeAsk id channel, .ready (.error reason)⟩ :: ⟨.enter .retryTopology, ()⟩ ::
          (notes (failing op channel (ClientError.transport reason).kind) ++
            discarding channel "write failed"))
        (.retryConnectivity (.transport reason))
  | abandoned :
      Spends a id channel
        (a.sending id channel ++ ⟨a.readAsk channel, .late⟩ :: ⟨.enter .abandoned, ()⟩ ::
          ⟨.record (.abandoned op.name), ()⟩ ::
            (notes (failing op channel "timeout") ++
              [⟨.drain (a.late id (Guard.fresh channel).sent), ()⟩]))
        (.failed (a.overrun .awaiting))
  | lost (reason : String) :
      Spends a id channel
        (a.sending id channel ++ ⟨a.readAsk channel, .ready (.error reason)⟩ ::
          ⟨.enter .retryTopology, ()⟩ ::
            (notes (failing op channel (ClientError.transport reason).kind) ++
              discarding channel "read failed"))
        (.retryConnectivity (.transport reason))
  | understood {frame : Bytes} {first : Exchange.Trace} {o : Outcome op.Reply}
      (h : a.Reading id channel frame first (.ok o)) :
      Spends a id channel
        (a.sending id channel ++ ⟨a.readAsk channel, .ready (.ok frame)⟩ ::
          (first ++ (releasing channel ++ (notes (concluding op channel o) ++
            [⟨.enter o.phase, ()⟩])))) o
  | misread {frame : Bytes} {first : Exchange.Trace} {e : ClientError}
      (h : a.Reading id channel frame first (.error e)) :
      Spends a id channel
        (a.sending id channel ++ ⟨a.readAsk channel, .ready (.ok frame)⟩ ::
          (first ++ (notes (failing op channel e.kind) ++
            (discarding channel "malformed response" ++ [⟨.enter .failed, ()⟩]))))
        (.failed e)

theorem isRecord_of_installs {q : Ask} (hq : q.Installs) : q.isRecord = false := by
  cases q with
  | install => rfl
  | _ => exact hq.elim

theorem reading_of_reaches {frame : Bytes} {judged : Except ClientError (Outcome op.Reply)}
    (h : Exchange.Reaches (a.interpret id channel frame) trace (.done judged)) :
    a.Reading id channel frame trace judged := by
  have hdealings : dealings trace = trace := by
    unfold dealings
    rw [List.filter_eq_self]
    intro e he
    have hinstalls := (Program.Only.of_reaches (only_interpret channel frame) h).1 e he
    rw [isRecord_of_installs hinstalls]
    rfl
  rcases reading_of_deals (deals_of_reaches h) with ⟨_, ⟨⟩, hreading⟩
  rwa [hdealings] at hreading

theorem spends_of_conclude {frame : Bytes} {o : Outcome op.Reply}
    (h : Exchange.Reaches (a.conclude id (.fresh channel) frame) trace (.done o)) :
    a.Spends id channel
      (a.sending id channel ++ ⟨a.readAsk channel, .ready (.ok frame)⟩ :: trace) o := by
  unfold conclude at h
  rcases Program.reaches_bind.1 h with ⟨q, -, hstand⟩ | ⟨first, judged, rest, rfl, hread, hrest⟩
  · cases hstand
  · have hreading := reading_of_reaches hread
    cases judged with
    | ok o =>
        rcases reaches_release.1 hrest with ⟨_, rfl, hreleased⟩
        rcases reaches_recordOutcome.1 hreleased with ⟨_, rfl, hrecorded⟩
        rcases reaches_enter.1 hrecorded with ⟨_, rfl, hentered⟩
        rcases Program.reaches_pure.1 hentered with ⟨rfl, ⟨⟩⟩
        exact .understood hreading
    | error e =>
        rcases reaches_recordFailure.1 hrest with ⟨_, rfl, hrecorded⟩
        rcases reaches_discard.1 hrecorded with ⟨_, rfl, hdiscarded⟩
        rcases reaches_enter.1 hdiscarded with ⟨_, rfl, hentered⟩
        rcases Program.reaches_pure.1 hentered with ⟨rfl, ⟨⟩⟩
        exact .misread hreading

theorem spends_of_receive {o : Outcome op.Reply}
    (h : Exchange.Reaches (a.receive id (Guard.fresh channel).sent) trace (.done o)) :
    a.Spends id channel (a.sending id channel ++ trace) o := by
  rcases reaches_answered_done.1 h with ⟨received, rest, rfl, hreceived⟩
  rcases received with _ | ⟨reason | frame⟩
  · rcases reaches_enter.1 hreceived with ⟨_, rfl, hentered⟩
    rcases reaches_record.1 hentered with ⟨_, rfl, habandoned⟩
    rcases reaches_recordFailure.1 habandoned with ⟨_, rfl, hrecorded⟩
    rcases reaches_answered_done.1 hrecorded with ⟨_, _, rfl, hdrained⟩
    rcases Program.reaches_pure.1 hdrained with ⟨rfl, ⟨⟩⟩
    exact .abandoned
  · rcases reaches_enter.1 hreceived with ⟨_, rfl, hentered⟩
    rcases reaches_recordFailure.1 hentered with ⟨_, rfl, hrecorded⟩
    rcases reaches_discard.1 hrecorded with ⟨_, rfl, hdiscarded⟩
    rcases Program.reaches_pure.1 hdiscarded with ⟨rfl, ⟨⟩⟩
    rw [List.append_nil]
    exact .lost reason
  · exact spends_of_conclude hreceived

theorem spends_of_send {o : Outcome op.Reply}
    (h : Exchange.Reaches (a.send id (.fresh channel)) trace (.done o)) :
    a.Spends id channel trace o := by
  rcases reaches_answered_done.1 h with ⟨written, rest, rfl, hwritten⟩
  rcases written with _ | ⟨reason | _⟩
  · rcases reaches_enter.1 hwritten with ⟨_, rfl, hentered⟩
    rcases reaches_record.1 hentered with ⟨_, rfl, habandoned⟩
    rcases reaches_recordFailure.1 habandoned with ⟨_, rfl, hrecorded⟩
    rcases reaches_discard.1 hrecorded with ⟨_, rfl, hdiscarded⟩
    rcases Program.reaches_pure.1 hdiscarded with ⟨rfl, ⟨⟩⟩
    rw [List.append_nil]
    exact .unwritten
  · rcases reaches_enter.1 hwritten with ⟨_, rfl, hentered⟩
    rcases reaches_recordFailure.1 hentered with ⟨_, rfl, hrecorded⟩
    rcases reaches_discard.1 hrecorded with ⟨_, rfl, hdiscarded⟩
    rcases Program.reaches_pure.1 hdiscarded with ⟨rfl, ⟨⟩⟩
    rw [List.append_nil]
    exact .rebuffed reason
  · rcases reaches_enter.1 hwritten with ⟨_, rfl, hsent⟩
    rcases reaches_enter.1 hsent with ⟨_, rfl, hawaiting⟩
    exact spends_of_receive hawaiting

/-!
# Runs from the beginning
-/

/-- The runs of an attempt to its outcome. -/
inductive Ends (a : Attempt op) : Exchange.Trace → Outcome op.Reply → Prop where
  | unlent (id : UInt64) :
      Ends a
        [⟨.messageId, id⟩, ⟨.acquire a.target a.deadline, .late⟩, ⟨.enter .abandoned, ()⟩,
          ⟨.record (.abandoned op.name), ()⟩]
        (.failed (a.overrun .acquiring))
  | refused (id : UInt64) (e : ClientError) (phase : Phase) :
      Ends a
        [⟨.messageId, id⟩, ⟨.acquire a.target a.deadline, .ready (.error e)⟩, ⟨.enter phase, ()⟩]
        (if e.isRetriable then .retryConnectivity e else .failed e)
  | lent {id : UInt64} {channel : Channel} {rest : Exchange.Trace} {o : Outcome op.Reply}
      (h : a.Spends id channel rest o) :
      Ends a (a.opening id channel ++ rest) o

theorem ends_of_reaches {o : Outcome op.Reply} (h : Exchange.Reaches a.run trace (.done o)) :
    a.Ends trace o := by
  rcases reaches_answered_done.1 h with ⟨id, _, rfl, hnumbered⟩
  rcases reaches_answered_done.1 hnumbered with ⟨acquired, _, rfl, hacquired⟩
  rcases acquired with _ | ⟨e | channel⟩
  · rcases reaches_enter.1 hacquired with ⟨_, rfl, hentered⟩
    rcases reaches_record.1 hentered with ⟨_, rfl, habandoned⟩
    rcases Program.reaches_pure.1 habandoned with ⟨rfl, ⟨⟩⟩
    exact .unlent id
  · have hrefused := Ends.refused (a := a) id e
    change Exchange.Reaches (ite (e.isRetriable = true) _ _) _ _ at hacquired
    by_cases he : e.isRetriable = true
    · rw [if_pos he] at hacquired
      simp only [if_pos he] at hrefused
      rcases reaches_enter.1 hacquired with ⟨_, rfl, hentered⟩
      rcases Program.reaches_pure.1 hentered with ⟨rfl, ⟨⟩⟩
      exact hrefused _
    · rw [if_neg he] at hacquired
      simp only [if_neg he] at hrefused
      rcases reaches_enter.1 hacquired with ⟨_, rfl, hentered⟩
      rcases Program.reaches_pure.1 hentered with ⟨rfl, ⟨⟩⟩
      exact hrefused _
  · rcases reaches_enter.1 hacquired with ⟨_, rfl, hlent⟩
    exact .lent (spends_of_send hlent)

end Attempt

namespace LateResponse

open Exchange

/-- The runs of the wait for a late response to its end. -/
inductive Ends (r : LateResponse) : Exchange.Trace → Prop where
  | never : Ends r (⟨r.readAsk, .late⟩ :: discarding r.guard.channel "no late response")
  | lost (reason : String) :
      Ends r (⟨r.readAsk, .ready (.error reason)⟩ ::
        discarding r.guard.channel "late read failed")
  | garbled {frame : Bytes} {e : ClientError}
      (hread : (ResponseHeader.reader r.intelligence).value frame = .error e) :
      Ends r (⟨r.readAsk, .ready (.ok frame)⟩ ::
        discarding r.guard.channel "malformed late response")
  | stray {frame : Bytes} {h : ResponseHeader} (reason : String)
      (hread : (ResponseHeader.reader r.intelligence).value frame = .ok h)
      (hid : h.messageId ≠ r.messageId) :
      Ends r (⟨r.readAsk, .ready (.ok frame)⟩ :: discarding r.guard.channel reason)
  | plain {frame : Bytes} {h : ResponseHeader}
      (hread : (ResponseHeader.reader r.intelligence).value frame = .ok h)
      (hid : h.messageId = r.messageId) (htopology : h.topology = none) :
      Ends r (⟨r.readAsk, .ready (.ok frame)⟩ :: releasing r.guard.channel)
  | moved {frame : Bytes} {h : ResponseHeader} {u : TopologyUpdate}
      (hread : (ResponseHeader.reader r.intelligence).value frame = .ok h)
      (hid : h.messageId = r.messageId) (htopology : h.topology = some u)
      (answer : Except ClientError Bool) :
      Ends r (⟨r.readAsk, .ready (.ok frame)⟩ :: ⟨.install r.cache u, answer⟩ ::
        releasing r.guard.channel)

variable {r : LateResponse} {trace : Exchange.Trace}

theorem reaches_release_end {g : Guard} (h : Exchange.Reaches g.release trace (.done ())) :
    trace = releasing g.channel := by
  rw [← Program.bind_done g.release, reaches_release] at h
  rcases h with ⟨rest, rfl, h⟩
  rcases Program.reaches_done.1 h with ⟨rfl, -⟩
  exact List.append_nil _

theorem reaches_discard_end {g : Guard} {reason : String}
    (h : Exchange.Reaches (g.discard reason) trace (.done ())) :
    trace = discarding g.channel reason := by
  rw [← Program.bind_done (g.discard reason), reaches_discard] at h
  rcases h with ⟨rest, rfl, h⟩
  rcases Program.reaches_done.1 h with ⟨rfl, -⟩
  exact List.append_nil _

theorem ends_of_reaches (h : Exchange.Reaches r.run trace (.done ())) : r.Ends trace := by
  rcases reaches_answered_done.1 h with ⟨received, _, rfl, hreceived⟩
  rcases received with _ | ⟨reason | frame⟩
  · rw [reaches_discard_end hreceived]
    exact .never
  · rw [reaches_discard_end hreceived]
    exact .lost reason
  · change Exchange.Reaches (r.take r.guard.received frame) _ _ at hreceived
    unfold take at hreceived
    split at hreceived
    · next e hread =>
      rw [reaches_discard_end hreceived]
      exact .garbled hread
    · next header hread =>
      split at hreceived
      · next hid =>
        split at hreceived
        · next u htopology =>
          rcases reaches_answered_done.1 hreceived with ⟨answer, _, rfl, hinstalled⟩
          rw [reaches_release_end hinstalled]
          exact .moved hread hid htopology answer
        · next htopology =>
          rw [reaches_release_end hreceived]
          exact .plain hread hid htopology
      · next hid =>
        rw [reaches_discard_end hreceived]
        exact .stray _ hread hid

end LateResponse
end GridClient
