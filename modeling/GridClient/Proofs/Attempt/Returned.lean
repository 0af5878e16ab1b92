import GridClient.Proofs.Attempt.Custody
import GridClient.Proofs.Program.Work

/-!
# Channels go back

Any number of attempts may be under way at a time, together with the waits for the late
responses of those that have been abandoned. However they are interleaved and whatever they
are answered, each channel that is lent is given back exactly once, and clean only if no
response is outstanding on it.
-/

namespace GridClient

/-- A late response is waited for in the background. -/
def Exchange.fork : Exchange.Ask → Option (Exchange Unit)
  | .drain r => some r.run
  | _ => none

open Exchange

/-!
# What is left to the background
-/

namespace Exchange

abbrev Alone {α : Type} (p : Exchange α) : Prop :=
  Program.Alone fork p

theorem fork_of_concludes {q : Ask} (hq : q.Concludes) : fork q = none := by
  cases q with
  | drain => exact hq.elim
  | _ => rfl

/-- Nothing that is done about a response leaves anything to the background. -/
theorem alone_of_concludes {α : Type} {p : Exchange α} (hp : Program.Only Ask.Concludes p) :
    Alone p :=
  hp.mono fun _ => fork_of_concludes

theorem alone_enter (p : Phase) : Alone (enter p) :=
  alone_of_concludes (only_enter p)

theorem alone_of_tidies {α : Type} {p : Exchange α} (hp : Program.Only Ask.Tidies p) : Alone p :=
  alone_of_concludes (only_concludes hp)

end Exchange

theorem LateResponse.alone_run (r : LateResponse) : Alone r.run := by
  refine .ask rfl ?_
  intro answer
  rcases answer with _ | ⟨reason | frame⟩
  · exact alone_of_tidies (only_discard _ _)
  · exact alone_of_tidies (only_discard _ _)
  · change Alone (r.take r.guard.received frame)
    unfold take
    split
    · exact alone_of_tidies (only_discard _ _)
    · split
      · split
        · exact .ask rfl fun _ => alone_of_tidies (only_release _)
        · exact alone_of_tidies (only_release _)
      · exact alone_of_tidies (only_discard _ _)

namespace Attempt

variable {op : OpCode} {a : Attempt op} {id : UInt64}

/-- The deadline has passed; what is left to the background comes after the notes of it. -/
theorem forksLast_abandoned (channel : Channel) {f : Unit → Exchange (Outcome op.Reply)}
    (hf : Program.ForksLast fork (f ())) :
    Program.ForksLast fork (do
      enter .abandoned
      record (.abandoned op.name)
      recordFailure op channel "timeout" >>= f) :=
  (alone_enter _).bind_forksLast fun _ =>
    (alone_of_tidies (only_record _)).bind_forksLast fun _ =>
      (alone_of_tidies (only_recordFailure channel _)).bind_forksLast fun _ => hf

theorem forksLast_receive (g : Guard) : Program.ForksLast fork (a.receive id g) := by
  refine .ask rfl ?_
  intro answer
  rcases answer with _ | ⟨reason | frame⟩
  · exact forksLast_abandoned g.channel (.last fun _ => ⟨_, rfl⟩)
  · exact Program.Alone.forksLast (alone_of_concludes (only_rebuffed g _ _ _))
  · exact Program.Alone.forksLast (alone_of_concludes (only_conclude g.received frame))

theorem forksLast_send (g : Guard) : Program.ForksLast fork (a.send id g) := by
  refine .ask rfl ?_
  intro answer
  rcases answer with _ | ⟨reason | _⟩
  · exact forksLast_abandoned g.channel
      ((alone_of_tidies (only_discard g _)).bind_forksLast fun _ => .done _)
  · exact Program.Alone.forksLast (alone_of_concludes (only_rebuffed g _ _ _))
  · exact (alone_enter _).bind_forksLast fun _ =>
      (alone_enter _).bind_forksLast fun _ => forksLast_receive g.sent

/-- The wait for a late response is left to the background when all else is done. -/
theorem forksLast_run (a : Attempt op) : Program.ForksLast fork a.run := by
  refine .ask rfl fun id => .ask rfl ?_
  intro answer
  rcases answer with _ | ⟨e | channel⟩
  · exact (alone_enter _).bind_forksLast fun _ =>
      (alone_of_tidies (only_record _)).bind_forksLast fun _ => .done _
  · change Program.ForksLast fork (ite (e.isRetriable = true) _ _)
    split <;> exact (alone_enter _).bind_forksLast fun _ => .done _
  · exact (alone_enter _).bind_forksLast fun _ => forksLast_send (.fresh channel)

/-!
# Attempts side by side
-/

/-- The attempts, each under its place. -/
def workers (as : List (Sigma Attempt)) : List (Nat × Exchange Unit) :=
  Program.numbered (as.map fun a => a.2.run >>= fun _ => .done ())

/-- What becomes of one of the attempts: the run that it takes by itself, then that of the
wait for its late response if it has left one, and the custody of its channel. -/
structure Passage (a : Attempt op) (events : Exchange.Trace) (run late : Exchange.Trace)
    (o : Outcome op.Reply) : Prop where
  events_eq : events = run ++ late
  reaches : Exchange.Reaches a.run run (.done o)
  followed : Followed run late
  custody : Custody a run late o

/-- What an attempt leaves to the background is the wait for its late response. -/
theorem followed_of_forks {run late : Exchange.Trace}
    (h : (late = [] ∧ ∀ e ∈ run, fork e.ask = none) ∨
      ∃ init e left, run = init ++ [e] ∧ fork e.ask = some left ∧
        Exchange.Reaches left late (.done ())) : Followed run late := by
  rcases h with ⟨hnil, hnone⟩ | ⟨init, ⟨q, answer⟩, left, hsplit, hfork, hleft⟩
  · exact Or.inl ⟨hnil, fun r hmem => nomatch hnone _ hmem⟩
  · cases q <;> cases hfork
    exact Or.inr ⟨_, by simp [hsplit], hleft⟩

theorem passage_of_work {as : List (Sigma Attempt)}
    {log : List (Nat × Program.Event Exchange.Answer)} {c e : Client}
    (hwork : Program.Work fork (workers as) log) (hserves : c.Serves (log.map Prod.snd) e)
    {number : Nat} (ha : as[number]? = some ⟨op, a⟩) :
    ∃ run late o, Passage a (Program.traceUnder number log) run late o := by
  -- Under its number the attempt works by itself, so the others can be left out.
  have hone : Program.Work fork [(number, a.run >>= fun _ => .done ())]
      (Program.under number log) := by
    have hunder := hwork.under number
    rwa [workers, Program.under_numbered (by rw [List.getElem?_map, ha]; rfl)] at hunder
  have hforks : ∀ q left, fork q = some left → Alone left := by
    intro q left hq
    cases q <;> cases hq
    exact LateResponse.alone_run _
  rcases ((forksLast_run a).map fun _ => ()).reaches hforks hone with
    ⟨run, late, hevents, hrun, hend⟩
  rcases Program.reaches_bind_pure.1 hrun with ⟨o | q, hinner, hstand⟩
  · have hfollowed := followed_of_forks hend
    refine ⟨run, late, o, hevents, hinner, hfollowed, custody_of_reaches hinner hfollowed ?_⟩
    intro cache u refusal hmem
    apply hserves.isFault_of_mem
    apply Program.mem_of_mem_traceUnder
    exact hevents ▸ List.mem_append_left late hmem
  · cases hstand

/-- If what is lent under each number is given back under it, all that is lent is given back. -/
theorem returns_perm_lendings {log : List (Nat × Program.Event Exchange.Answer)} {bound : Nat}
    (hnumbers : ∀ event ∈ log, event.1 < bound)
    (h : ∀ number < bound, (returns (Program.traceUnder number log)).map Prod.fst =
      lendings (Program.traceUnder number log)) :
    ((returns (log.map Prod.snd)).map Prod.fst).Perm (lendings (log.map Prod.snd)) := by
  have hperm := (Program.flatMap_under_perm hnumbers).map Prod.snd
  rw [List.map_flatMap] at hperm
  have hreturns := (hperm.filterMap returned?).map Prod.fst
  have hlendings := hperm.filterMap lent?
  rw [List.filterMap_flatMap, List.map_flatMap] at hreturns
  rw [List.filterMap_flatMap] at hlendings
  refine hreturns.symm.trans (List.Perm.trans (.of_eq ?_) hlendings)
  rw [List.flatMap_def, List.flatMap_def]
  refine congrArg List.flatten (List.map_congr_left ?_)
  exact fun number hnumber => h number (List.mem_range.1 hnumber)

/-- Whatever the nodes do and however the attempts are interleaved, each channel that is lent
is given back exactly once, and what becomes of it is up to the attempt that it was lent to. -/
theorem channels_returned {as : List (Sigma Attempt)}
    {log : List (Nat × Program.Event Exchange.Answer)} {c e : Client}
    (hwork : Program.Work fork (workers as) log) (hserves : c.Serves (log.map Prod.snd) e) :
    ((returns (log.map Prod.snd)).map Prod.fst).Perm (lendings (log.map Prod.snd)) ∧
      (∀ event ∈ log, event.1 < as.length) ∧
        ∀ number op (a : Attempt op), as[number]? = some ⟨op, a⟩ →
          ∃ run late o, Passage a (Program.traceUnder number log) run late o := by
  have hnumbers : ∀ event ∈ log, event.1 < as.length := by
    intro event hevent
    have hmem := hwork.number_mem event hevent
    rwa [workers, Program.map_fst_numbered, List.mem_range, List.length_map] at hmem
  refine ⟨returns_perm_lendings hnumbers ?_, hnumbers, ?_⟩
  · intro number hnumber
    rcases passage_of_work hwork hserves (List.getElem?_eq_getElem hnumber) with
      ⟨run, late, o, hpassage⟩
    rw [hpassage.events_eq]
    exact hpassage.custody.returned
  · exact fun number op a ha => passage_of_work hwork hserves ha

/-!
# A response that comes late
-/

/-- A run in which the response does not come in time. -/
def abandonedRun (a : Attempt op) (id : UInt64) (channel : Channel) : Exchange.Trace :=
  [⟨.messageId, id⟩, ⟨.acquire a.target a.deadline, .ready (.ok channel)⟩,
    ⟨.enter .channelAcquired, ()⟩, ⟨a.writeAsk id channel, .ready (.ok ())⟩, ⟨.enter .sent, ()⟩,
    ⟨.enter .awaitingResponse, ()⟩, ⟨a.readAsk channel, .late⟩, ⟨.enter .abandoned, ()⟩,
    ⟨.record (.abandoned op.name), ()⟩, ⟨.record (.duration op.name channel.node.text), ()⟩,
    ⟨.record (.failure op.name channel.node.text "timeout"), ()⟩,
    ⟨.drain (a.late id (Guard.fresh channel).sent), ()⟩]

theorem reaches_abandonedRun (a : Attempt op) (id : UInt64) (channel : Channel) :
    Exchange.Reaches a.run (a.abandonedRun id channel)
      (.done (.failed (a.overrun .awaiting))) := by
  unfold abandonedRun
  exact .answered _ (.answered _ (.answered _ (.answered _ (.answered _ (.answered _ (.answered _
    (.answered _ (.answered _ (.answered _ (.answered _ (.answered _ (.done _))))))))))))

end Attempt

namespace LateResponse

variable {r : LateResponse} {frame : Bytes} {h : ResponseHeader}

/-- A wait for a late response in which a frame comes. -/
def caughtRun (r : LateResponse) (frame : Bytes) : Exchange.Trace :=
  [⟨r.readAsk, .ready (.ok frame)⟩, ⟨.record (.released r.guard.channel.node.text), ()⟩,
    ⟨.giveBack r.guard.channel true, ()⟩]

theorem reaches_caughtRun
    (hread : (ResponseHeader.reader r.intelligence).value frame = .ok h)
    (hid : h.messageId = r.messageId) (htopology : h.topology = none) :
    Exchange.Reaches r.run (r.caughtRun frame) (.done ()) := by
  have htake : r.take r.guard.received frame = r.guard.received.release := by
    unfold take
    rw [hread]
    dsimp only
    rw [if_pos hid, htopology]
  have hrest : Exchange.Reaches (r.take r.guard.received frame)
      [⟨.record (.released r.guard.channel.node.text), ()⟩, ⟨.giveBack r.guard.channel true, ()⟩]
      (.done ()) := by
    rw [htake]
    exact .answered _ (.answered _ (.done ()))
  exact .answered _ hrest

end LateResponse

namespace Attempt

/-- A ping to some node that has nine milliseconds, and five more for a late response. -/
def lonePing : Attempt .ping where
  cache := []
  operation := .ping none
  flags := .none
  topology := .initial .basic [⟨"a", 1⟩]
  intelligence := .basic
  target := .any
  deadline := 9
  patience := 5

def loneChannel : Channel where
  id := 1
  node := ⟨"a", 1⟩
  version := .v31

/-- The response that the ping has left behind. -/
def lonePong : LateResponse :=
  lonePing.late 1 (Guard.fresh loneChannel).sent

/-- The response to the ping comes too late, but while there is patience. -/
def lateLog : List (Nat × Program.Event Exchange.Answer) :=
  (lonePing.abandonedRun 1 loneChannel).map (Prod.mk 0) ++
    ((lonePong.caughtRun [0xA1, 1, 0x18, 0, 0]).map (Prod.mk 0) ++ [])

theorem work_lateLog : Program.Work fork (workers [⟨.ping, lonePing⟩]) lateLog := by
  have hping : Exchange.Reaches (lonePing.run >>= fun _ => .done ())
      (lonePing.abandonedRun 1 loneChannel) (.done ()) :=
    Program.reaches_bind_pure.2 ⟨_, reaches_abandonedRun lonePing 1 loneChannel, rfl⟩
  have hpong : Exchange.Reaches lonePong.run (lonePong.caughtRun [0xA1, 1, 0x18, 0, 0])
      (.done ()) :=
    LateResponse.reaches_caughtRun (h := ⟨1, 0x18, ⟨0⟩, none⟩) rfl rfl rfl
  exact hping.work (hpong.work .finished)

/-- A client that knows one server. -/
def loneClient : Client where
  registry := .ofServers .basic [⟨"a", 1⟩]

theorem serves_lateLog : ∃ e, loneClient.Serves (lateLog.map Prod.snd) e :=
  ⟨_, .numbers (.foreign trivial (.foreign trivial (.foreign trivial (.foreign trivial
    (.foreign trivial (.foreign trivial (.foreign trivial (.records (.records (.records
      (.foreign trivial (.foreign trivial (.records (.foreign trivial (.nil _)))))))))))))))⟩

theorem channels_returned_late :
    Program.Work fork (workers [⟨.ping, lonePing⟩]) lateLog ∧
      ∃ e, loneClient.Serves (lateLog.map Prod.snd) e ∧
        ((returns (lateLog.map Prod.snd)).map Prod.fst).Perm (lendings (lateLog.map Prod.snd)) ∧
          (∀ event ∈ lateLog, event.1 < 1) ∧
            ∀ number op (a : Attempt op),
              [(⟨.ping, lonePing⟩ : Sigma Attempt)][number]? = some ⟨op, a⟩ →
                ∃ run late o, Passage a (Program.traceUnder number lateLog) run late o := by
  rcases serves_lateLog with ⟨e, hserves⟩
  exact ⟨work_lateLog, e, hserves, channels_returned work_lateLog hserves⟩

end Attempt
end GridClient
