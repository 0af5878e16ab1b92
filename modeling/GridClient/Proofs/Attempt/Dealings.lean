import GridClient.Proofs.Attempt.Frames

/-!
# The dealings of an attempt

Phases and measurements are for the records only. Everything else that an attempt asks are
its dealings: with the client, with the nodes, and with the channel that it has been lent.
There are only so many courses that these can take. They are listed here once, so that what
holds of every attempt can be read off the list.
-/

namespace GridClient
namespace Exchange

variable {α β : Type}

/-- Phases and measurements are for the records. -/
def Ask.isRecord : Ask → Bool
  | .enter _ => true
  | .record _ => true
  | _ => false

/-- What has been asked and answered, the records left out. -/
def dealings (trace : Trace) : Trace :=
  trace.filter fun e => !e.ask.isRecord

theorem mem_dealings {trace : Trace} {e : Program.Event Answer} :
    e ∈ dealings trace ↔ e ∈ trace ∧ e.ask.isRecord = false := by
  unfold dealings
  rw [List.mem_filter, Bool.not_eq_true']

theorem dealings_append (first last : Trace) :
    dealings (first ++ last) = dealings first ++ dealings last :=
  List.filter_append first last

/-- What is read off the events without regard to records is read off the dealings. -/
theorem filterMap_dealings {γ : Type} {f : Program.Event Answer → Option γ}
    (hf : ∀ e, e.ask.isRecord = true → f e = none) (trace : Trace) :
    (dealings trace).filterMap f = trace.filterMap f := by
  induction trace with
  | nil => rfl
  | cons e rest ih =>
      unfold dealings at *
      cases he : e.ask.isRecord with
      | true => rw [List.filter_cons_of_neg (by simp [he]), ih, List.filterMap_cons_none (hf e he)]
      | false =>
          rw [List.filter_cons_of_pos (by simp [he]), List.filterMap_cons, ih, List.filterMap_cons]

/-!
# Programs by their dealings
-/

/-- The program has a run with these dealings. -/
def Deals (p : Exchange α) (ds : Trace) (stand : Stand α) : Prop :=
  ∃ trace, dealings trace = ds ∧ Reaches p trace stand

variable {ds : Trace} {stand : Stand β}

theorem deals_of_reaches {p : Exchange α} {trace : Trace} {stand : Stand α}
    (h : Reaches p trace stand) : Deals p (dealings trace) stand :=
  ⟨trace, rfl, h⟩

theorem deals_done {b : β} : Deals (.done b) ds stand ↔ ds = [] ∧ stand = .done b := by
  constructor
  · intro hdeals
    rcases hdeals with ⟨trace, rfl, h⟩
    rcases Program.reaches_done.1 h with ⟨rfl, rfl⟩
    exact ⟨rfl, rfl⟩
  · intro hdone
    rcases hdone with ⟨rfl, rfl⟩
    exact ⟨[], rfl, .done b⟩

@[simp] theorem deals_pure {b : β} :
    Deals (pure b : Exchange β) ds stand ↔ ds = [] ∧ stand = .done b :=
  deals_done

theorem deals_bind {p : Exchange α} {f : α → Exchange β} :
    Deals (p >>= f) ds stand ↔
      (∃ q, Deals p ds (.waiting q) ∧ stand = .waiting q) ∨
        ∃ first a rest, ds = first ++ rest ∧ Deals p first (.done a) ∧ Deals (f a) rest stand := by
  constructor
  · intro hdeals
    rcases hdeals with ⟨trace, rfl, hrun⟩
    rcases Program.reaches_bind.1 hrun with ⟨q, hp, rfl⟩ | ⟨first, a, rest, rfl, hp, hf⟩
    · exact Or.inl ⟨q, deals_of_reaches hp, rfl⟩
    · exact Or.inr ⟨_, a, _, dealings_append first rest, deals_of_reaches hp, deals_of_reaches hf⟩
  · intro hdeals
    rcases hdeals with ⟨q, ⟨trace, rfl, hp⟩, rfl⟩ | ⟨_, a, _, rfl, ⟨first, rfl, hp⟩, rest, rfl, hf⟩
    · exact ⟨trace, rfl, Program.reaches_bind.2 (Or.inl ⟨q, hp, rfl⟩)⟩
    · exact ⟨first ++ rest, dealings_append first rest,
        Program.reaches_bind.2 (Or.inr ⟨first, a, rest, rfl, hp, hf⟩)⟩

theorem deals_ask {q : Ask} {f : Answer q → Exchange β} (hq : q.isRecord = false) :
    Deals (.ask q f) ds stand ↔
      (q.Waits ∧ ds = [] ∧ stand = .waiting q) ∨
        ∃ answer rest, ds = ⟨q, answer⟩ :: rest ∧ Deals (f answer) rest stand := by
  have hcons : ∀ (answer : Answer q) (trace : Trace),
      dealings (⟨q, answer⟩ :: trace) = ⟨q, answer⟩ :: dealings trace :=
    fun answer trace => List.filter_cons_of_pos (by simp [hq])
  constructor
  · intro hdeals
    rcases hdeals with ⟨trace, rfl, h⟩
    rcases Program.reaches_ask.1 h with ⟨hwaits, rfl, rfl⟩ | ⟨answer, rest, rfl, hrest⟩
    · exact Or.inl ⟨hwaits, rfl, rfl⟩
    · exact Or.inr ⟨answer, dealings rest, hcons answer rest, deals_of_reaches hrest⟩
  · intro hask
    rcases hask with ⟨hwaits, rfl, rfl⟩ | ⟨answer, _, rfl, rest, rfl, hrest⟩
    · exact ⟨[], rfl, .waiting hwaits⟩
    · exact ⟨⟨q, answer⟩ :: rest, hcons answer rest, .answered answer hrest⟩

/-- What takes no time is answered. -/
theorem deals_ask_at_once {q : Ask} {f : Answer q → Exchange β} (hq : q.isRecord = false)
    (hwaits : ¬ q.Waits) :
    Deals (.ask q f) ds stand ↔
      ∃ answer rest, ds = ⟨q, answer⟩ :: rest ∧ Deals (f answer) rest stand := by
  rw [deals_ask hq]
  exact or_iff_right fun h => hwaits h.1

/-- Keeping records changes nothing. -/
theorem deals_record_ask {q : Ask} {f : Answer q → Exchange β} (hq : q.isRecord = true)
    (answer : Answer q) (h : ∀ other, other = answer) :
    Deals (.ask q f) ds stand ↔ Deals (f answer) ds stand := by
  have hcons : ∀ (answer : Answer q) (trace : Trace),
      dealings (⟨q, answer⟩ :: trace) = dealings trace :=
    fun answer trace => List.filter_cons_of_neg (by simp [hq])
  have hwaits : ¬ q.Waits := by
    cases q <;> simp [Ask.isRecord, Ask.Waits] at *
  constructor
  · intro hdeals
    rcases hdeals with ⟨trace, rfl, hrun⟩
    rcases (Program.reaches_ask_of_not_waits hwaits).1 hrun with ⟨other, rest, rfl, hrest⟩
    rw [hcons, ← h other]
    exact deals_of_reaches hrest
  · intro hdeals
    rcases hdeals with ⟨rest, rfl, hrest⟩
    exact ⟨⟨q, answer⟩ :: rest, hcons answer rest, .answered answer hrest⟩

@[simp] theorem deals_enter {p : Phase} {f : Unit → Exchange β} :
    Deals (enter p >>= f) ds stand ↔ Deals (f ()) ds stand :=
  deals_record_ask (q := .enter p) (f := f) rfl () fun _ => rfl

@[simp] theorem deals_record {m : Measurement} {f : Unit → Exchange β} :
    Deals (record m >>= f) ds stand ↔ Deals (f ()) ds stand :=
  deals_record_ask (q := .record m) (f := f) rfl () fun _ => rfl

theorem deals_messageId {f : UInt64 → Exchange β} :
    Deals (messageId >>= f) ds stand ↔
      ∃ id rest, ds = ⟨.messageId, id⟩ :: rest ∧ Deals (f id) rest stand :=
  deals_ask_at_once (q := .messageId) (f := f) rfl id

theorem deals_install {cache : Bytes} {u : TopologyUpdate}
    {f : Except ClientError Bool → Exchange β} :
    Deals (install cache u >>= f) ds stand ↔
      ∃ answer rest, ds = ⟨.install cache u, answer⟩ :: rest ∧ Deals (f answer) rest stand :=
  deals_ask_at_once (q := .install cache u) (f := f) rfl id

theorem deals_acquire {target : Target} {deadline : Instant}
    {f : Timely (Except ClientError Channel) → Exchange β} :
    Deals (acquire target deadline >>= f) ds stand ↔
      (ds = [] ∧ stand = .waiting (.acquire target deadline)) ∨
        ∃ answer rest, ds = ⟨.acquire target deadline, answer⟩ :: rest ∧
          Deals (f answer) rest stand := by
  have h : Deals (acquire target deadline >>= f) ds stand ↔ _ :=
    deals_ask (q := .acquire target deadline) (f := f) rfl
  exact h.trans (or_congr_left (and_iff_right trivial))

theorem deals_write {g : Guard} {frame : Bytes} {deadline : Instant}
    {f : Timely (Except String Unit) → Exchange β} :
    Deals (write g frame deadline >>= f) ds stand ↔
      (ds = [] ∧ stand = .waiting (.write g frame deadline)) ∨
        ∃ answer rest, ds = ⟨.write g frame deadline, answer⟩ :: rest ∧
          Deals (f answer) rest stand := by
  have h : Deals (write g frame deadline >>= f) ds stand ↔ _ :=
    deals_ask (q := .write g frame deadline) (f := f) rfl
  exact h.trans (or_congr_left (and_iff_right trivial))

theorem deals_read {g : Guard} {limit : Limit}
    {f : Timely (Except String Bytes) → Exchange β} :
    Deals (read g limit >>= f) ds stand ↔
      (ds = [] ∧ stand = .waiting (.read g limit)) ∨
        ∃ answer rest, ds = ⟨.read g limit, answer⟩ :: rest ∧ Deals (f answer) rest stand := by
  have h : Deals (read g limit >>= f) ds stand ↔ _ :=
    deals_ask (q := .read g limit) (f := f) rfl
  exact h.trans (or_congr_left (and_iff_right trivial))

theorem deals_giveBack {channel : Channel} {clean : Bool} {f : Unit → Exchange β} :
    Deals (giveBack channel clean >>= f) ds stand ↔
      ∃ rest, ds = ⟨.giveBack channel clean, ()⟩ :: rest ∧ Deals (f ()) rest stand := by
  have h : Deals (giveBack channel clean >>= f) ds stand ↔ _ :=
    deals_ask_at_once (q := .giveBack channel clean) (f := f) rfl id
  rw [h]
  exact ⟨fun ⟨_, hrun⟩ => hrun, fun hrun => ⟨(), hrun⟩⟩

@[simp] theorem deals_release {g : Guard} {f : Unit → Exchange β} :
    Deals (g.release >>= f) ds stand ↔
      ∃ rest, ds = ⟨.giveBack g.channel true, ()⟩ :: rest ∧ Deals (f ()) rest stand := by
  unfold Guard.release
  rw [Program.bind_bind, deals_record, deals_giveBack]

@[simp] theorem deals_discard {g : Guard} {reason : String} {f : Unit → Exchange β} :
    Deals (g.discard reason >>= f) ds stand ↔
      ∃ rest, ds = ⟨.giveBack g.channel false, ()⟩ :: rest ∧ Deals (f ()) rest stand := by
  unfold Guard.discard
  rw [Program.bind_bind, deals_record, deals_giveBack]

theorem deals_release_end {g : Guard} {stand : Stand Unit} :
    Deals g.release ds stand ↔ ds = [⟨.giveBack g.channel true, ()⟩] ∧ stand = .done () := by
  rw [← Program.bind_done g.release, deals_release]
  simp only [deals_done]
  constructor
  · rintro ⟨rest, rfl, rfl, rfl⟩
    exact ⟨rfl, rfl⟩
  · rintro ⟨rfl, rfl⟩
    exact ⟨[], rfl, rfl, rfl⟩

theorem deals_discard_end {g : Guard} {reason : String} {stand : Stand Unit} :
    Deals (g.discard reason) ds stand ↔
      ds = [⟨.giveBack g.channel false, ()⟩] ∧ stand = .done () := by
  rw [← Program.bind_done (g.discard reason), deals_discard]
  simp only [deals_done]
  constructor
  · rintro ⟨rest, rfl, rfl, rfl⟩
    exact ⟨rfl, rfl⟩
  · rintro ⟨rfl, rfl⟩
    exact ⟨[], rfl, rfl, rfl⟩

@[simp] theorem deals_drain {r : LateResponse} {f : Unit → Exchange β} :
    Deals (drain r >>= f) ds stand ↔
      ∃ rest, ds = ⟨.drain r, ()⟩ :: rest ∧ Deals (f ()) rest stand := by
  have h : Deals (drain r >>= f) ds stand ↔ _ :=
    deals_ask_at_once (q := .drain r) (f := f) rfl id
  rw [h]
  exact ⟨fun ⟨_, hrun⟩ => hrun, fun hrun => ⟨(), hrun⟩⟩

end Exchange

namespace Attempt

open Exchange

variable {op : OpCode} {a : Attempt op} {id : UInt64} {channel : Channel}

/-!
# Reading a response
-/

/-- The courses that the reading of a response can take, with what it leads to. -/
inductive Reading (a : Attempt op) (id : UInt64) (channel : Channel) (frame : Bytes) :
    Exchange.Trace → Except ClientError (Outcome op.Reply) → Prop where
  | garbled {e : ClientError} {rest : Bytes}
      (hread : (ResponseHeader.reader a.intelligence).run frame = (.error e, rest)) :
      Reading a id channel frame [] (.error e)
  | stray {h : ResponseHeader} {body : Bytes}
      (hread : (ResponseHeader.reader a.intelligence).run frame = (.ok h, body))
      (hid : h.messageId ≠ id) :
      Reading a id channel frame [] (.error (.protocol (.strayResponse h.messageId id)))
  | plain {h : ResponseHeader} {body : Bytes}
      (hread : (ResponseHeader.reader a.intelligence).run frame = (.ok h, body))
      (hid : h.messageId = id) (htopology : h.topology = none) :
      Reading a id channel frame [] (a.judge channel h body)
  | refused {h : ResponseHeader} {body : Bytes} {u : TopologyUpdate} {e : ClientError}
      (hread : (ResponseHeader.reader a.intelligence).run frame = (.ok h, body))
      (hid : h.messageId = id) (htopology : h.topology = some u) :
      Reading a id channel frame [⟨.install a.cache u, .error e⟩] (.error e)
  | moved {h : ResponseHeader} {body : Bytes} {u : TopologyUpdate} {applied : Bool}
      (hread : (ResponseHeader.reader a.intelligence).run frame = (.ok h, body))
      (hid : h.messageId = id) (htopology : h.topology = some u)
      (hreaction : op.reaction = .retry) :
      Reading a id channel frame [⟨.install a.cache u, .ok applied⟩] (.ok .retryTopology)
  | kept {h : ResponseHeader} {body : Bytes} {u : TopologyUpdate} {applied : Bool}
      (hread : (ResponseHeader.reader a.intelligence).run frame = (.ok h, body))
      (hid : h.messageId = id) (htopology : h.topology = some u)
      (hreaction : op.reaction ≠ .retry) :
      Reading a id channel frame [⟨.install a.cache u, .ok applied⟩] (a.judge channel h body)

theorem reading_of_deals {frame : Bytes} {ds : Exchange.Trace}
    {stand : Exchange.Stand (Except ClientError (Outcome op.Reply))}
    (h : Deals (a.interpret id channel frame) ds stand) :
    ∃ judged, stand = .done judged ∧ a.Reading id channel frame ds judged := by
  unfold interpret at h
  split at h
  · next e rest hread =>
    rcases deals_pure.1 h with ⟨rfl, rfl⟩
    exact ⟨_, rfl, .garbled hread⟩
  · next header body hread =>
    split at h
    · next hid =>
      unfold settle at h
      split at h
      · next htopology =>
        rcases deals_pure.1 h with ⟨rfl, rfl⟩
        exact ⟨_, rfl, .plain hread hid htopology⟩
      · next u htopology =>
        rcases deals_install.1 h with ⟨answer, rest, rfl, hrest⟩
        cases answer with
        | error e =>
            rcases deals_pure.1 hrest with ⟨rfl, rfl⟩
            exact ⟨_, rfl, .refused hread hid htopology⟩
        | ok applied =>
            change Deals (ite (op.reaction = .retry) _ _) rest stand at hrest
            split at hrest
            · next hreaction =>
              rcases deals_pure.1 hrest with ⟨rfl, rfl⟩
              exact ⟨_, rfl, .moved hread hid htopology hreaction⟩
            · next hreaction =>
              rcases deals_pure.1 hrest with ⟨rfl, rfl⟩
              exact ⟨_, rfl, .kept hread hid htopology hreaction⟩
    · next hid =>
      rcases deals_pure.1 h with ⟨rfl, rfl⟩
      exact ⟨_, rfl, .stray hread hid⟩

/-!
# Using a channel
-/

abbrev writeAsk (a : Attempt op) (id : UInt64) (channel : Channel) : Ask :=
  .write (.fresh channel) (a.frame id channel.version) a.deadline

abbrev readAsk (a : Attempt op) (channel : Channel) : Ask :=
  .read (Guard.fresh channel).sent (.upTo a.deadline)

/-- The courses that an attempt can take once it has been lent a channel. -/
inductive Using (a : Attempt op) (id : UInt64) (channel : Channel) :
    Exchange.Trace → Exchange.Stand (Outcome op.Reply) → Prop where
  | writing : Using a id channel [] (.waiting (a.writeAsk id channel))
  | unwritten :
      Using a id channel [⟨a.writeAsk id channel, .late⟩, ⟨.giveBack channel false, ()⟩]
        (.done (.failed (a.overrun .writing)))
  | rebuffed (reason : String) :
      Using a id channel
        [⟨a.writeAsk id channel, .ready (.error reason)⟩, ⟨.giveBack channel false, ()⟩]
        (.done (.retryConnectivity (.transport reason)))
  | reading :
      Using a id channel [⟨a.writeAsk id channel, .ready (.ok ())⟩] (.waiting (a.readAsk channel))
  | abandoned :
      Using a id channel
        [⟨a.writeAsk id channel, .ready (.ok ())⟩, ⟨a.readAsk channel, .late⟩,
          ⟨.drain (a.late id (Guard.fresh channel).sent), ()⟩]
        (.done (.failed (a.overrun .awaiting)))
  | lost (reason : String) :
      Using a id channel
        [⟨a.writeAsk id channel, .ready (.ok ())⟩, ⟨a.readAsk channel, .ready (.error reason)⟩,
          ⟨.giveBack channel false, ()⟩]
        (.done (.retryConnectivity (.transport reason)))
  | understood {frame : Bytes} {ds : Exchange.Trace} {o : Outcome op.Reply}
      (h : a.Reading id channel frame ds (.ok o)) :
      Using a id channel
        (⟨a.writeAsk id channel, .ready (.ok ())⟩ :: ⟨a.readAsk channel, .ready (.ok frame)⟩ ::
          (ds ++ [⟨.giveBack channel true, ()⟩])) (.done o)
  | misread {frame : Bytes} {ds : Exchange.Trace} {e : ClientError}
      (h : a.Reading id channel frame ds (.error e)) :
      Using a id channel
        (⟨a.writeAsk id channel, .ready (.ok ())⟩ :: ⟨a.readAsk channel, .ready (.ok frame)⟩ ::
          (ds ++ [⟨.giveBack channel false, ()⟩])) (.done (.failed e))

@[simp] theorem deals_recordFailure {β : Type} {kind : String} {f : Unit → Exchange β}
    {ds : Exchange.Trace} {stand : Exchange.Stand β} :
    Deals (recordFailure op channel kind >>= f) ds stand ↔ Deals (f ()) ds stand := by
  unfold recordFailure
  rw [Program.bind_bind, deals_record, deals_record]

@[simp] theorem deals_recordOutcome {α β : Type} {o : Outcome α} {f : Unit → Exchange β}
    {ds : Exchange.Trace} {stand : Exchange.Stand β} :
    Deals (recordOutcome op channel o >>= f) ds stand ↔ Deals (f ()) ds stand := by
  cases o with
  | completed reply =>
      unfold recordOutcome recordSuccess
      rw [Program.bind_bind, deals_record, deals_record]
  | retryTopology => exact deals_recordFailure
  | retryConnectivity e => exact deals_recordFailure
  | failed e => exact deals_recordFailure

theorem using_of_conclude {frame : Bytes} {ds : Exchange.Trace}
    {stand : Exchange.Stand (Outcome op.Reply)}
    (h : Deals (a.conclude id (.fresh channel) frame) ds stand) :
    a.Using id channel
      (⟨a.writeAsk id channel, .ready (.ok ())⟩ :: ⟨a.readAsk channel, .ready (.ok frame)⟩ :: ds)
      stand := by
  unfold conclude at h
  rcases deals_bind.1 h with ⟨q, hread, rfl⟩ | ⟨first, judged, rest, rfl, hread, hrest⟩
  · rcases reading_of_deals hread with ⟨judged, hstand, -⟩
    cases hstand
  · rcases reading_of_deals hread with ⟨_, ⟨⟩, hreading⟩
    cases judged with
    | ok o =>
        simp only [deals_release, deals_recordOutcome, deals_enter, deals_pure] at hrest
        rcases hrest with ⟨_, rfl, rfl, rfl⟩
        exact .understood hreading
    | error e =>
        simp only [deals_recordFailure, deals_discard, deals_enter, deals_pure] at hrest
        rcases hrest with ⟨_, rfl, rfl, rfl⟩
        exact .misread hreading

theorem using_of_deals {ds : Exchange.Trace} {stand : Exchange.Stand (Outcome op.Reply)}
    (h : Deals (a.send id (.fresh channel)) ds stand) : a.Using id channel ds stand := by
  unfold send at h
  rcases deals_write.1 h with ⟨rfl, rfl⟩ | ⟨written, rest, rfl, hwritten⟩
  · exact .writing
  · rcases written with _ | ⟨reason | _⟩
    · simp only [deals_enter, deals_record, deals_recordFailure, deals_discard, deals_pure]
        at hwritten
      rcases hwritten with ⟨_, rfl, rfl, rfl⟩
      exact .unwritten
    · simp only [deals_enter, deals_recordFailure, deals_discard, deals_pure] at hwritten
      rcases hwritten with ⟨_, rfl, rfl, rfl⟩
      exact .rebuffed reason
    · simp only [deals_enter] at hwritten
      unfold receive at hwritten
      rcases deals_read.1 hwritten with ⟨rfl, rfl⟩ | ⟨received, rest, rfl, hreceived⟩
      · exact .reading
      · rcases received with _ | ⟨reason | frame⟩
        · simp only [deals_enter, deals_record, deals_recordFailure, deals_drain, deals_pure]
            at hreceived
          rcases hreceived with ⟨_, rfl, rfl, rfl⟩
          exact .abandoned
        · simp only [deals_enter, deals_recordFailure, deals_discard, deals_pure] at hreceived
          rcases hreceived with ⟨_, rfl, rfl, rfl⟩
          exact .lost reason
        · exact using_of_conclude hreceived

/-!
# The whole of an attempt
-/

/-- The courses that an attempt can take. -/
inductive Course (a : Attempt op) :
    Exchange.Trace → Exchange.Stand (Outcome op.Reply) → Prop where
  | acquiring (id : UInt64) :
      Course a [⟨.messageId, id⟩] (.waiting (.acquire a.target a.deadline))
  | unlent (id : UInt64) :
      Course a [⟨.messageId, id⟩, ⟨.acquire a.target a.deadline, .late⟩]
        (.done (.failed (a.overrun .acquiring)))
  | refused (id : UInt64) (e : ClientError) :
      Course a [⟨.messageId, id⟩, ⟨.acquire a.target a.deadline, .ready (.error e)⟩]
        (.done (if e.isRetriable then .retryConnectivity e else .failed e))
  | lent {id : UInt64} {channel : Channel} {ds : Exchange.Trace}
      {stand : Exchange.Stand (Outcome op.Reply)} (h : a.Using id channel ds stand) :
      Course a
        (⟨.messageId, id⟩ :: ⟨.acquire a.target a.deadline, .ready (.ok channel)⟩ :: ds) stand

theorem course_of_reaches {trace : Exchange.Trace} {stand : Exchange.Stand (Outcome op.Reply)}
    (h : Exchange.Reaches a.run trace stand) : a.Course (dealings trace) stand := by
  have hrun := deals_of_reaches h
  unfold run at hrun
  rcases deals_messageId.1 hrun with ⟨id, rest, hds, hacquire⟩
  rw [hds]
  rcases deals_acquire.1 hacquire with ⟨rfl, rfl⟩ | ⟨acquired, rest, rfl, hacquired⟩
  · exact .acquiring id
  · rcases acquired with _ | ⟨e | channel⟩
    · simp only [deals_enter, deals_record, deals_pure] at hacquired
      rcases hacquired with ⟨rfl, rfl⟩
      exact .unlent id
    · have hend : rest = [] ∧
          stand = .done (if e.isRetriable = true then .retryConnectivity e else .failed e) := by
        change Deals (ite (e.isRetriable = true) _ _) rest stand at hacquired
        split at hacquired
        · next he =>
          rw [if_pos he]
          simpa only [deals_enter, deals_pure] using hacquired
        · next he =>
          rw [if_neg he]
          simpa only [deals_enter, deals_pure] using hacquired
      rcases hend with ⟨rfl, rfl⟩
      exact .refused id e
    · simp only [deals_enter] at hacquired
      exact .lent (using_of_deals hacquired)

end Attempt

namespace LateResponse

open Exchange

/-!
# Late responses
-/

abbrev readAsk (r : LateResponse) : Ask :=
  .read r.guard (.within r.patience)

/-- The courses that the wait for a late response can take. -/
inductive Course (r : LateResponse) : Exchange.Trace → Exchange.Stand Unit → Prop where
  | reading : Course r [] (.waiting r.readAsk)
  | never : Course r [⟨r.readAsk, .late⟩, ⟨.giveBack r.guard.channel false, ()⟩] (.done ())
  | lost (reason : String) :
      Course r [⟨r.readAsk, .ready (.error reason)⟩, ⟨.giveBack r.guard.channel false, ()⟩]
        (.done ())
  | garbled {frame : Bytes} {e : ClientError}
      (hread : (ResponseHeader.reader r.intelligence).value frame = .error e) :
      Course r [⟨r.readAsk, .ready (.ok frame)⟩, ⟨.giveBack r.guard.channel false, ()⟩] (.done ())
  | stray {frame : Bytes} {h : ResponseHeader}
      (hread : (ResponseHeader.reader r.intelligence).value frame = .ok h)
      (hid : h.messageId ≠ r.messageId) :
      Course r [⟨r.readAsk, .ready (.ok frame)⟩, ⟨.giveBack r.guard.channel false, ()⟩] (.done ())
  | plain {frame : Bytes} {h : ResponseHeader}
      (hread : (ResponseHeader.reader r.intelligence).value frame = .ok h)
      (hid : h.messageId = r.messageId) (htopology : h.topology = none) :
      Course r [⟨r.readAsk, .ready (.ok frame)⟩, ⟨.giveBack r.guard.channel true, ()⟩] (.done ())
  | moved {frame : Bytes} {h : ResponseHeader} {u : TopologyUpdate}
      (hread : (ResponseHeader.reader r.intelligence).value frame = .ok h)
      (hid : h.messageId = r.messageId) (htopology : h.topology = some u)
      (answer : Except ClientError Bool) :
      Course r
        [⟨r.readAsk, .ready (.ok frame)⟩, ⟨.install r.cache u, answer⟩,
          ⟨.giveBack r.guard.channel true, ()⟩] (.done ())

variable {r : LateResponse}

theorem course_of_take {frame : Bytes} {ds : Exchange.Trace} {stand : Exchange.Stand Unit}
    (h : Deals (r.take r.guard.received frame) ds stand) :
    r.Course (⟨r.readAsk, .ready (.ok frame)⟩ :: ds) stand := by
  unfold take at h
  split at h
  · next e hread =>
    rcases deals_discard_end.1 h with ⟨rfl, rfl⟩
    exact .garbled hread
  · next header hread =>
    split at h
    · next hid =>
      split at h
      · next u htopology =>
        rcases deals_install.1 h with ⟨answer, rest, rfl, hrest⟩
        rcases deals_release_end.1 hrest with ⟨rfl, rfl⟩
        exact .moved hread hid htopology answer
      · next htopology =>
        rcases deals_release_end.1 h with ⟨rfl, rfl⟩
        exact .plain hread hid htopology
    · next hid =>
      rcases deals_discard_end.1 h with ⟨rfl, rfl⟩
      exact .stray hread hid

theorem course_of_reaches {trace : Exchange.Trace} {stand : Exchange.Stand Unit}
    (h : Exchange.Reaches r.run trace stand) : r.Course (dealings trace) stand := by
  have hrun := deals_of_reaches h
  unfold run at hrun
  rcases deals_read.1 hrun with ⟨hds, rfl⟩ | ⟨received, rest, hds, hreceived⟩
  · rw [hds]
    exact .reading
  · rw [hds]
    rcases received with _ | ⟨reason | frame⟩
    · rcases deals_discard_end.1 hreceived with ⟨rfl, rfl⟩
      exact .never
    · rcases deals_discard_end.1 hreceived with ⟨rfl, rfl⟩
      exact .lost reason
    · exact course_of_take hreceived

end LateResponse
end GridClient
