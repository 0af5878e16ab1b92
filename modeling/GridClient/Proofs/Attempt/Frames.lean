import GridClient.Attempt.Basic
import GridClient.Proofs.Program.Heeding

/-!
# The frame of an attempt

An attempt waits for its channel, for the writing of its frame and for the response. It
writes one frame at most; if it has been completed, it has written exactly one, with its
own header and the body of its operation.
-/

namespace GridClient
namespace Exchange

variable {α β : Type}

abbrev Trace : Type :=
  Program.Trace Answer

abbrev Stand (α : Type) : Type :=
  Program.Stand Ask α

/-- The asks that take time. -/
def Ask.Waits : Ask → Prop
  | .acquire _ _ => True
  | .write _ _ _ => True
  | .read _ _ => True
  | _ => False

abbrev Reaches (p : Exchange α) (trace : Trace) (stand : Stand α) : Prop :=
  Program.Reaches Ask.Waits p trace stand

variable {trace : Trace} {stand : Stand β}

theorem reaches_at_once {q : Ask} {f : Answer q → Exchange β} (hq : ¬ q.Waits)
    (h : Reaches (.ask q f) trace stand) :
    ∃ answer rest, trace = ⟨q, answer⟩ :: rest ∧ Reaches (f answer) rest stand :=
  (Program.reaches_ask_of_not_waits hq).1 h

/-!
# Sorts of asks
-/

/-- A topology is installed, and nothing else is asked. -/
def Ask.Installs : Ask → Prop
  | .install _ _ => True
  | _ => False

/-- What is seen to between the phases of an attempt, without waiting. -/
def Ask.Tidies : Ask → Prop
  | .install _ _ => True
  | .record _ => True
  | .giveBack _ _ => True
  | _ => False

/-- What is done about a response that has come. -/
def Ask.Concludes : Ask → Prop
  | .enter _ => True
  | q => q.Tidies

/-- What is asked once the frame has been written. -/
def Ask.Follows : Ask → Prop
  | .read _ _ => True
  | .drain _ => True
  | q => q.Concludes

theorem Ask.tidies_of_installs {q : Ask} (hq : q.Installs) : q.Tidies := by
  cases q with
  | install => trivial
  | _ => exact hq.elim

theorem Ask.concludes_of_tidies {q : Ask} (hq : q.Tidies) : q.Concludes := by
  cases q with
  | enter => trivial
  | _ => exact hq

theorem Ask.follows_of_concludes {q : Ask} (hq : q.Concludes) : q.Follows := by
  cases q with
  | read | drain => trivial
  | _ => exact hq

theorem only_record (m : Measurement) : Program.Only Ask.Tidies (record m) :=
  .ask trivial fun _ => .done ()

theorem only_release (g : Guard) : Program.Only Ask.Tidies g.release :=
  (only_record _).bind fun _ => .ask trivial fun _ => .done ()

theorem only_discard (g : Guard) (reason : String) : Program.Only Ask.Tidies (g.discard reason) :=
  (only_record _).bind fun _ => .ask trivial fun _ => .done ()

theorem only_enter (p : Phase) : Program.Only Ask.Concludes (enter p) :=
  .ask trivial fun _ => .done ()

/-- Whoever only tidies up may do so about a response. -/
theorem only_concludes {p : Exchange α} (hp : Program.Only Ask.Tidies p) :
    Program.Only Ask.Concludes p :=
  hp.mono fun _ => Ask.concludes_of_tidies

theorem only_follows {p : Exchange α} (hp : Program.Only Ask.Concludes p) :
    Program.Only Ask.Follows p :=
  hp.mono fun _ => Ask.follows_of_concludes

/-!
# What is written
-/

def Ask.frame? : Ask → Option Bytes
  | .write _ frame _ => some frame
  | _ => none

/-- The frames that a run has set about to write, in order. -/
def frames : Trace → Stand α → List Bytes
  | [], .done _ => []
  | [], .waiting q => q.frame?.toList
  | e :: rest, stand => e.ask.frame?.toList ++ frames rest stand

theorem frames_cons (e : Program.Event Answer) (trace : Trace) (stand : Stand α) :
    frames (e :: trace) stand = e.ask.frame?.toList ++ frames trace stand := by
  cases trace <;> rfl

theorem Ask.frame?_of_follows {q : Ask} (hq : q.Follows) : q.frame? = none := by
  cases q with
  | write => exact hq.elim
  | _ => rfl

/-- Once the frame has been written nothing else is. -/
theorem frames_eq_nil {p : Exchange α} {trace : Trace} {stand : Stand α}
    (hp : Program.Only Ask.Follows p) (h : Reaches p trace stand) : frames trace stand = [] := by
  induction h with
  | done a => rfl
  | waiting hwaits =>
      cases hp with
      | ask hq hnext =>
          unfold frames
          rw [Ask.frame?_of_follows hq]
          rfl
  | answered answer h ih =>
      cases hp with
      | ask hq hnext =>
          rw [frames_cons, ih (hnext answer), Ask.frame?_of_follows hq]
          rfl

end Exchange

namespace Attempt

open Exchange

variable {op : OpCode} {a : Attempt op} {id : UInt64}

/-!
# After the frame
-/

theorem only_recordFailure (channel : Channel) (kind : String) :
    Program.Only Ask.Tidies (recordFailure op channel kind) :=
  (only_record _).bind fun _ => only_record _

theorem only_recordOutcome {α : Type} (channel : Channel) (o : Outcome α) :
    Program.Only Ask.Tidies (recordOutcome op channel o) := by
  cases o with
  | completed a => exact (only_record _).bind fun _ => only_record _
  | retryTopology => exact only_recordFailure channel _
  | retryConnectivity e => exact only_recordFailure channel _
  | failed e => exact only_recordFailure channel _

theorem only_settle (channel : Channel) (h : ResponseHeader) (body : Bytes) :
    Program.Only Ask.Installs (a.settle channel h body) := by
  unfold settle
  split
  · exact .done _
  · refine .ask trivial ?_
    intro answer
    cases answer with
    | error e => exact .done _
    | ok applied =>
        split <;> exact .done _

/-- A response is read without any note being taken. -/
theorem only_interpret (channel : Channel) (frame : Bytes) :
    Program.Only Ask.Installs (a.interpret id channel frame) := by
  unfold interpret
  split
  · exact .done _
  · split
    · exact only_settle channel _ _
    · exact .done _

theorem only_tidies_interpret (channel : Channel) (frame : Bytes) :
    Program.Only Ask.Tidies (a.interpret id channel frame) :=
  (only_interpret channel frame).mono fun _ => Ask.tidies_of_installs

theorem only_conclude (g : Guard) (frame : Bytes) :
    Program.Only Ask.Concludes (a.conclude id g frame) := by
  refine (only_concludes (only_tidies_interpret g.channel frame)).bind ?_
  intro judged
  cases judged with
  | ok o =>
      exact (only_concludes (only_release g)).bind fun _ =>
        (only_concludes (only_recordOutcome g.channel o)).bind fun _ =>
          (only_enter _).bind fun _ => .done _
  | error e =>
      exact (only_concludes (only_recordFailure g.channel _)).bind fun _ =>
        (only_concludes (only_discard g _)).bind fun _ => (only_enter _).bind fun _ => .done _

/-- A frame that cannot be written or read makes the channel unfit. -/
theorem only_rebuffed (g : Guard) (kind reason : String) (o : Outcome op.Reply) :
    Program.Only Ask.Concludes (do
      enter .retryTopology
      recordFailure op g.channel kind
      g.discard reason
      return o) :=
  (only_enter _).bind fun _ => (only_concludes (only_recordFailure g.channel _)).bind fun _ =>
    (only_concludes (only_discard g _)).bind fun _ => .done _

/-- What an attempt sees to first when the deadline has passed. -/
theorem only_abandoned (channel : Channel) {f : Unit → Exchange (Outcome op.Reply)}
    (hf : Program.Only Ask.Follows (f ())) :
    Program.Only Ask.Follows (do
      enter .abandoned
      record (.abandoned op.name)
      recordFailure op channel "timeout" >>= f) :=
  (only_follows (only_enter _)).bind fun _ =>
    (only_follows (only_concludes (only_record _))).bind fun _ =>
      (only_follows (only_concludes (only_recordFailure channel _))).bind fun _ => hf

theorem only_receive (g : Guard) : Program.Only Ask.Follows (a.receive id g) := by
  refine .ask trivial ?_
  intro answer
  rcases answer with _ | ⟨reason | frame⟩
  · exact only_abandoned g.channel (.ask trivial fun _ => .done _)
  · exact only_follows (only_rebuffed g _ _ _)
  · exact only_follows (only_conclude g.received frame)

/-!
# One frame at most
-/

/-- Once a channel has been acquired the frame is written, and nothing else is. -/
theorem frames_send {g : Guard} {trace : Trace} {stand : Stand (Outcome op.Reply)}
    (h : Exchange.Reaches (a.send id g) trace stand) :
    frames trace stand = [a.frame id g.channel.version] := by
  rcases Program.reaches_ask.1 h with ⟨-, rfl, rfl⟩ | ⟨answer, rest, rfl, hrest⟩
  · rfl
  · have hnothing : frames rest stand = [] := by
      refine frames_eq_nil ?_ hrest
      rcases answer with _ | ⟨reason | _⟩
      · exact only_abandoned g.channel
          ((only_follows (only_concludes (only_discard g _))).bind fun _ => .done _)
      · exact only_follows (only_rebuffed g _ _ _)
      · exact (only_follows (only_enter _)).bind fun _ =>
          (only_follows (only_enter _)).bind fun _ => only_receive g.sent
    rw [frames_cons, hnothing]
    rfl

/-- An attempt writes its own frame or none; without a frame it is not completed. -/
theorem frames_run {trace : Trace} {stand : Stand (Outcome op.Reply)}
    (h : Exchange.Reaches a.run trace stand) :
    (frames trace stand = [] ∧ ∀ reply, stand ≠ .done (.completed reply)) ∨
      ∃ id version, frames trace stand = [a.frame id version] := by
  unfold run at h
  rcases reaches_at_once id h with ⟨number, rest, rfl, hacquire⟩
  rcases Program.reaches_ask.1 hacquire with ⟨-, rfl, rfl⟩ | ⟨answer, rest, rfl, hrest⟩
  · exact Or.inl ⟨rfl, by simp⟩
  · rcases answer with _ | ⟨e | channel⟩
    · rcases reaches_at_once id hrest with ⟨_, rest, rfl, hrecord⟩
      rcases reaches_at_once id hrecord with ⟨_, rest, rfl, hfailed⟩
      rcases Program.reaches_pure.1 hfailed with ⟨rfl, rfl⟩
      exact Or.inl ⟨rfl, by simp⟩
    · refine Or.inl ?_
      change Exchange.Reaches (ite (e.isRetriable = true) _ _) rest stand at hrest
      split at hrest
      all_goals
        rcases reaches_at_once id hrest with ⟨_, rest, rfl, hdone⟩
        rcases Program.reaches_pure.1 hdone with ⟨rfl, rfl⟩
        exact ⟨rfl, by simp⟩
    · rcases reaches_at_once id hrest with ⟨_, rest, rfl, hsend⟩
      exact Or.inr ⟨number, channel.version, frames_send hsend⟩

/-!
# Two ways to end
-/

/-- An attempt that gets no channel is to be repeated if another channel may do better. -/
theorem reaches_unacquired (a : Attempt op) (id : UInt64) {e : ClientError}
    (he : e.isRetriable = true) :
    Exchange.Reaches a.run
      [⟨.messageId, id⟩, ⟨.acquire a.target a.deadline, .ready (.error e)⟩,
        ⟨.enter .retryTopology, ()⟩] (.done (.retryConnectivity e)) := by
  have hretry : Exchange.Reaches
      (if e.isRetriable = true then do
        Exchange.enter .retryTopology
        return Outcome.retryConnectivity e
      else do
        Exchange.enter .failed
        return (Outcome.failed e : Outcome op.Reply))
      [⟨.enter .retryTopology, ()⟩] (.done (.retryConnectivity e)) := by
    rw [if_pos he]
    exact .answered _ (.done _)
  exact .answered _ (.answered _ hretry)

/-- An attempt is completed if it gets a response that answers it. -/
theorem reaches_answered (a : Attempt op) (id : UInt64) (channel : Channel) (frame : Bytes)
    {reply : op.Reply} (h : a.interpret id channel frame = pure (.ok (.completed reply))) :
    ∃ run, Exchange.Reaches a.run run (.done (.completed reply)) := by
  have hconclude : ∃ rest, Exchange.Reaches (a.conclude id (Guard.fresh channel) frame) rest
      (.done (.completed reply)) := by
    unfold conclude
    rw [Guard.fresh, h, Program.pure_bind]
    exact ⟨_, .answered () (.answered () (.answered () (.answered () (.answered ()
      (Program.reaches_pure.2 ⟨rfl, rfl⟩)))))⟩
  rcases hconclude with ⟨rest, hrest⟩
  exact ⟨_, .answered id (.answered (.ready (.ok channel)) (.answered ()
    (.answered (.ready (.ok ())) (.answered () (.answered ()
      (.answered (.ready (.ok frame)) hrest))))))⟩

end Attempt
end GridClient
