import GridClient.Proofs.Attempt.Custody

/-!
# Attempts that are answered

The response to an attempt is a frame that is read in time, with a header that can be read
and the number of the attempt. It settles the matter unless it reports that the node is about
to leave, or brings a topology under which the operation is to be asked for again. Without a
response the matter is settled too, unless the frame or the response has been lost.
-/

namespace GridClient
namespace Attempt

open Exchange

variable {op : OpCode} {a : Attempt op} {id : UInt64} {channel : Channel} {run : Exchange.Trace}

/-- A response has been read on a channel, with this header and this body. -/
def Answered (a : Attempt op) (channel : Channel) (run : Exchange.Trace) (h : ResponseHeader)
    (body : Bytes) : Prop :=
  ∃ id frame, ⟨.messageId, id⟩ ∈ run ∧
    ⟨.acquire a.target a.deadline, .ready (.ok channel)⟩ ∈ run ∧
      ⟨a.readAsk channel, .ready (.ok frame)⟩ ∈ run ∧
        (ResponseHeader.reader a.intelligence).run frame = (.ok h, body) ∧ h.messageId = id

/-- The response reports that another attempt may succeed. -/
def Deferred (a : Attempt op) (run : Exchange.Trace) : Prop :=
  ∃ channel h body, a.Answered channel run h body ∧ h.status.isTransient = true

/-- The response could not be read. -/
def Lost (run : Exchange.Trace) : Prop :=
  ∃ g limit reason, ⟨.read g limit, .ready (.error reason)⟩ ∈ run

def Written (run : Exchange.Trace) : Prop :=
  ∃ e ∈ run, Sends e

/-!
# Records aside
-/

theorem answered_dealings {h : ResponseHeader} {body : Bytes} :
    a.Answered channel (dealings run) h body ↔ a.Answered channel run h body := by
  unfold Answered
  simp [mem_dealings, Ask.isRecord]

theorem deferred_dealings : a.Deferred (dealings run) ↔ a.Deferred run := by
  unfold Deferred
  simp only [answered_dealings]

theorem lost_dealings : Lost (dealings run) ↔ Lost run := by
  unfold Lost
  simp [mem_dealings, Ask.isRecord]

theorem written_dealings : Written (dealings run) ↔ Written run := by
  unfold Written
  refine exists_congr fun e => and_congr_left fun hsends => ?_
  rw [mem_dealings]
  refine and_iff_left ?_
  rcases e with ⟨q, answer⟩
  cases q <;> first | rfl | exact hsends.elim

/-!
# What an answer leads to
-/

variable {ds : Exchange.Trace} {stand : Exchange.Stand (Outcome op.Reply)}

theorem Reading.not_read_error {frame : Bytes} {first : Exchange.Trace}
    {judged : Except ClientError (Outcome op.Reply)}
    (hreading : a.Reading id channel frame first judged) (g : Guard) (limit : Limit)
    (reason : String) : ⟨.read g limit, .ready (.error reason)⟩ ∉ first := by
  intro hmem
  rcases hreading.asks_install _ hmem with ⟨u, hask⟩
  cases hask

/-- Of the dealings of an attempt that has read a frame, the number and the frame are told by
what is asked. -/
theorem Reading.eq_of_mem {id' : UInt64} {channel' : Channel} {frame frame' : Bytes}
    {first : Exchange.Trace} {judged : Except ClientError (Outcome op.Reply)} {clean : Bool}
    (hreading : a.Reading id' channel' frame' first judged)
    (hnumber : ⟨.messageId, id⟩ ∈ a.lentDealings id' channel'
      (⟨a.writeAsk id' channel', .ready (.ok ())⟩ ::
        ⟨a.readAsk channel', .ready (.ok frame')⟩ :: (first ++ [⟨.giveBack channel' clean, ()⟩])))
    (hread : ⟨a.readAsk channel, .ready (.ok frame)⟩ ∈ a.lentDealings id' channel'
      (⟨a.writeAsk id' channel', .ready (.ok ())⟩ ::
        ⟨a.readAsk channel', .ready (.ok frame')⟩ :: (first ++ [⟨.giveBack channel' clean, ()⟩]))) :
    id = id' ∧ channel = channel' ∧ frame = frame' := by
  have hnone : ∀ e ∈ first, e ≠ ⟨.messageId, id⟩ ∧ e ≠ ⟨a.readAsk channel, .ready (.ok frame)⟩ := by
    intro e he
    rcases hreading.asks_install e he with ⟨u, hask⟩
    constructor <;> · rintro rfl; cases hask
  constructor
  · have hfirst : ⟨.messageId, id⟩ ∉ first := fun hmem => (hnone _ hmem).1 rfl
    simpa [lentDealings, hfirst] using hnumber
  · have hfirst : ⟨a.readAsk channel, .ready (.ok frame)⟩ ∉ first :=
      fun hmem => (hnone _ hmem).2 rfl
    simpa [lentDealings, hfirst, Guard.fresh, Guard.sent] using hread

/-- A frame that has been read is the one that is interpreted. -/
theorem Course.reading_of_answered {h : ResponseHeader} {body : Bytes} (hcourse : a.Course ds stand)
    (hanswered : a.Answered channel ds h body) :
    ∃ id frame judged first, stand = .done (.ofJudged judged) ∧
      a.Reading id channel frame first judged ∧ (∀ e ∈ first, e ∈ ds) ∧
        (ResponseHeader.reader a.intelligence).run frame = (.ok h, body) ∧ h.messageId = id := by
  rcases hanswered with ⟨id, frame, hnumber, hlent, hread, hheader, hid⟩
  rcases hcourse.using_of_mem hread nofun nofun with ⟨id', channel', rest, rfl, hrest, husing⟩
  cases husing with
  | writing => simp at hrest
  | unwritten => simp at hrest
  | rebuffed reason => simp at hrest
  | reading => simp at hrest
  | abandoned => simp at hrest
  | lost reason => simp at hrest
  | @understood frame' first o hreading =>
      rcases hreading.eq_of_mem hnumber hread with ⟨rfl, rfl, rfl⟩
      exact ⟨id, frame, .ok o, first, rfl, hreading, by simp +contextual [lentDealings], hheader,
        hid⟩
  | @misread frame' first e hreading =>
      rcases hreading.eq_of_mem hnumber hread with ⟨rfl, rfl, rfl⟩
      exact ⟨id, frame, .error e, first, rfl, hreading, by simp +contextual [lentDealings], hheader,
        hid⟩

/-- What the reading of a response comes to. -/
theorem Reading.outcome {frame : Bytes} {first : Exchange.Trace}
    {judged : Except ClientError (Outcome op.Reply)} {h : ResponseHeader} {body : Bytes}
    (hreading : a.Reading id channel frame first judged)
    (hheader : (ResponseHeader.reader a.intelligence).run frame = (.ok h, body))
    (hid : h.messageId = id) :
    (h.topology = none ∧ judged = a.judge channel h body) ∨
      ∃ u answer, h.topology = some u ∧ ⟨.install a.cache u, answer⟩ ∈ first ∧
        ((∃ e, answer = .error e ∧ judged = .error e) ∨
          ∃ applied, answer = .ok applied ∧
            judged = if op.reaction = .retry then .ok .retryTopology
              else a.judge channel h body) := by
  cases hreading with
  | garbled hread => rw [hread] at hheader; cases hheader
  | stray hread hother =>
      rw [hread] at hheader
      cases hheader
      exact absurd hid hother
  | plain hread _ htopology =>
      rw [hread] at hheader
      cases hheader
      exact Or.inl ⟨htopology, rfl⟩
  | @refused _ _ u e hread _ htopology =>
      rw [hread] at hheader
      cases hheader
      exact Or.inr ⟨u, _, htopology, List.mem_singleton.2 rfl, Or.inl ⟨e, rfl, rfl⟩⟩
  | @moved _ _ u applied hread _ htopology hreaction =>
      rw [hread] at hheader
      cases hheader
      exact Or.inr ⟨u, _, htopology, List.mem_singleton.2 rfl,
        Or.inr ⟨applied, rfl, (if_pos hreaction).symm⟩⟩
  | @kept _ _ u applied hread _ htopology hreaction =>
      rw [hread] at hheader
      cases hheader
      exact Or.inr ⟨u, _, htopology, List.mem_singleton.2 rfl,
        Or.inr ⟨applied, rfl, (if_neg hreaction).symm⟩⟩

/-- If answers stand under a new topology too, only a transient status asks for a repetition. -/
theorem Reading.deferred {frame : Bytes} {first : Exchange.Trace} {o : Outcome op.Reply}
    (hreading : a.Reading id channel frame first (.ok o)) (hreaction : op.reaction ≠ .retry)
    (ho : o.isRetry = true) :
    ∃ h body, (ResponseHeader.reader a.intelligence).run frame = (.ok h, body) ∧
      h.messageId = id ∧ h.status.isTransient = true := by
  generalize hjudged : Except.ok o = judged at hreading
  have htransient : ∀ {h : ResponseHeader} {body : Bytes}, .ok o = a.judge channel h body →
      h.status.isTransient = true := by
    intro h body heq
    have hretry : (Outcome.ofJudged (a.judge channel h body)).isRetry = true := by
      rw [← heq]
      exact ho
    exact isTransient_of_judge hretry
  cases hreading with
  | garbled hread => cases hjudged
  | stray hread hid => cases hjudged
  | plain hread hid htopology => exact ⟨_, _, hread, hid, htransient hjudged⟩
  | refused hread hid htopology => cases hjudged
  | moved hread hid htopology hretry => exact absurd hretry hreaction
  | kept hread hid htopology hretry => exact ⟨_, _, hread, hid, htransient hjudged⟩

/-- If answers stand under a new topology too, an attempt whose frame has been written is to be
repeated only if its response was lost or asks for it. -/
theorem Course.of_written {o : Outcome op.Reply} (hcourse : a.Course ds (.done o))
    (hreaction : op.reaction ≠ .retry) (hwritten : Written ds) (ho : o.isRetry = true) :
    Lost ds ∨ a.Deferred ds := by
  rcases hwritten with ⟨e, hmem, hsends⟩
  have hask : e.ask ≠ .messageId ∧ ∀ target deadline, e.ask ≠ .acquire target deadline := by
    rcases e with ⟨q, answer⟩
    cases q with
    | write g frame deadline => exact ⟨nofun, nofun⟩
    | _ => exact hsends.elim
  rcases hcourse.using_of_mem hmem hask.1 hask.2 with ⟨id, channel, rest, rfl, hrest, husing⟩
  generalize hstand : Program.Stand.done o = stand at husing
  cases husing with
  | writing => cases hstand
  | unwritten =>
      cases hstand
      cases ho
  | rebuffed reason =>
      simp only [List.mem_cons, List.not_mem_nil, or_false] at hrest
      rcases hrest with rfl | rfl <;> exact hsends.elim
  | reading => cases hstand
  | abandoned =>
      cases hstand
      cases ho
  | lost reason =>
      exact Or.inl ⟨(Guard.fresh channel).sent, .upTo a.deadline, reason, by simp [lentDealings]⟩
  | @understood frame first o hreading =>
      cases hstand
      rcases hreading.deferred hreaction ho with ⟨h, body, hheader, hid, htransient⟩
      exact Or.inr ⟨channel, h, body,
        ⟨id, frame, by simp [lentDealings], by simp [lentDealings], by simp [lentDealings], hheader,
          hid⟩, htransient⟩
  | misread hreading =>
      cases hstand
      cases ho

/-- A response that is lost is one to a frame that has been written, and it asks for nothing. -/
theorem Course.of_lost (hcourse : a.Course ds stand) (hlost : Lost ds) :
    Written ds ∧ ¬ a.Deferred ds := by
  rcases hlost with ⟨g, limit, reason, hmem⟩
  rcases hcourse.using_of_mem hmem nofun nofun with ⟨id, channel, rest, rfl, hrest, husing⟩
  cases husing with
  | writing => simp at hrest
  | unwritten => simp at hrest
  | rebuffed reason => simp at hrest
  | reading => simp at hrest
  | abandoned => simp at hrest
  | lost reason =>
      refine ⟨⟨⟨a.writeAsk id channel, .ready (.ok ())⟩, by simp [lentDealings], trivial⟩, ?_⟩
      intro hdeferred
      rcases hdeferred with ⟨_, h, body, ⟨_, frame, -, -, hread, -⟩, -⟩
      simp [lentDealings] at hread
  | understood hreading =>
      have hfirst := hreading.not_read_error g limit reason
      simp [hfirst] at hrest
  | misread hreading =>
      have hfirst := hreading.not_read_error g limit reason
      simp [hfirst] at hrest

/-!
# A response that is lost
-/

/-- A run in which the response cannot be read. -/
def lostRun (a : Attempt op) (id : UInt64) (channel : Channel) (reason : String) :
    Exchange.Trace :=
  [⟨.messageId, id⟩, ⟨.acquire a.target a.deadline, .ready (.ok channel)⟩,
    ⟨.enter .channelAcquired, ()⟩, ⟨a.writeAsk id channel, .ready (.ok ())⟩, ⟨.enter .sent, ()⟩,
    ⟨.enter .awaitingResponse, ()⟩, ⟨a.readAsk channel, .ready (.error reason)⟩,
    ⟨.enter .retryTopology, ()⟩, ⟨.record (.duration op.name channel.node.text), ()⟩,
    ⟨.record (.failure op.name channel.node.text "transport"), ()⟩,
    ⟨.record (.discarded channel.node.text "read failed"), ()⟩, ⟨.giveBack channel false, ()⟩]

theorem reaches_lostRun (a : Attempt op) (id : UInt64) (channel : Channel) (reason : String) :
    Exchange.Reaches a.run (a.lostRun id channel reason)
      (.done (.retryConnectivity (.transport reason))) := by
  unfold lostRun
  exact .answered _ (.answered _ (.answered _ (.answered _ (.answered _ (.answered _ (.answered _
    (.answered _ (.answered _ (.answered _ (.answered _ (.answered _ (.done _))))))))))))

end Attempt
end GridClient
