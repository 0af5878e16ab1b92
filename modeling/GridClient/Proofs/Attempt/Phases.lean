import GridClient.Proofs.Attempt.Returned
import GridClient.Proofs.Program.Heeding
import Mathlib.Data.List.Chain

/-!
# The phases of an attempt

An attempt records each phase that it enters, and nothing checks the record against the steps that
there are between phases. Whatever it is answered, the phases are a path from the first one along
these steps. The path of an attempt that is over ends in the one terminal phase on it, which is the
phase of the outcome unless a wait has outlasted the deadline.
-/

namespace GridClient

namespace Exchange

variable {α β : Type}

/-!
# What a run has come through
-/

def entered? : Program.Event Answer → Option Phase
  | ⟨.enter p, _⟩ => some p
  | _ => none

/-- The phases of a run, in order. No ask is needed to be in the first one. -/
def path (run : Trace) : List Phase :=
  .created :: run.filterMap entered?

/-- How long an ask may take that takes time. -/
def Ask.limit? : Ask → Option Limit
  | .acquire _ deadline => some (.upTo deadline)
  | .write _ _ deadline => some (.upTo deadline)
  | .read _ limit => some limit
  | _ => none

/-- A channel has not been lent, a frame not written or not read within the limit. -/
def isLate : Program.Event Answer → Bool
  | ⟨.acquire _ _, .late⟩ => true
  | ⟨.write _ _ _, .late⟩ => true
  | ⟨.read _ _, .late⟩ => true
  | _ => false

def isHeard : Program.Event Answer → Bool
  | ⟨.read _ _, .ready (.ok _)⟩ => true
  | _ => false

theorem isHeard_iff {e : Program.Event Answer} : isHeard e = true ↔ Receives e := by
  unfold isHeard Receives
  split <;> simp_all

/-- Where an attempt stands: its phase, whether a wait was too long, and whether a frame has been
read. -/
structure Standing where
  phase : Phase
  late : Bool
  heard : Bool

namespace Standing

def initial : Standing where
  phase := .created
  late := false
  heard := false

def after (s : Standing) (e : Program.Event Answer) : Standing where
  phase := (entered? e).getD s.phase
  late := isLate e || s.late
  heard := isHeard e || s.heard

/-- The asks that a standing allows: a phase to which there is a step, not that of a completed
attempt before a frame has been read; and waits up to the deadline, unless all is over. -/
structure Allows (deadline : Instant) (s : Standing) (q : Ask) : Prop where
  steps : ∀ p, q = .enter p → s.phase.steps p = true
  heard : q = .enter .completed → s.heard = true
  going : q.Waits → s.phase.isTerminal = false
  limit : ∀ limit ∈ q.limit?, limit = .upTo deadline

/-- The standing in which an attempt may come to an outcome. -/
structure Fits (s : Standing) (o : Outcome α) : Prop where
  phase : s.phase = if s.late then .abandoned else o.phase
  timeout : s.late = true → ∃ text, o = .failed (.timeout text)

variable {deadline : Instant} {s : Standing} {run : Trace}

/-!
# From the standings to the path
-/

/-- The phase in which a run stands is the last one on its path. -/
theorem path_eq_concat (s : Standing) (run : Trace) :
    ∃ passed, s.phase :: run.filterMap entered? = passed ++ [(run.foldl after s).phase] := by
  induction run generalizing s with
  | nil => exact ⟨[], rfl⟩
  | cons e rest ih =>
      rcases ih (s.after e) with ⟨passed, hpassed⟩
      cases he : entered? e with
      | none =>
          have hphase : (s.after e).phase = s.phase := congrArg (Option.getD · s.phase) he
          rw [hphase] at hpassed
          exact ⟨passed, by rw [List.filterMap_cons_none he, hpassed, List.foldl_cons]⟩
      | some p =>
          have hphase : (s.after e).phase = p := congrArg (Option.getD · s.phase) he
          rw [hphase] at hpassed
          refine ⟨s.phase :: passed, ?_⟩
          rw [List.filterMap_cons_some he, hpassed, List.foldl_cons, List.cons_append]

/-- Whether any event of a run is of a kind, once it has been noted of each. -/
theorem foldl_or {f : Program.Event Answer → Bool} (noted : Bool) (run : Trace) :
    run.foldl (fun noted e => f e || noted) noted = (run.any f || noted) := by
  induction run generalizing noted with
  | nil => rfl
  | cons e rest ih =>
      rw [List.foldl_cons, ih, List.any_cons, ← Bool.or_assoc, Bool.or_comm (rest.any f)]

theorem late_foldl (s : Standing) (run : Trace) :
    (run.foldl after s).late = (run.any isLate || s.late) := by
  rw [← foldl_or]
  exact (List.foldl_hom Standing.late fun _ _ => rfl).symm

theorem heard_foldl (s : Standing) (run : Trace) :
    (run.foldl after s).heard = (run.any isHeard || s.heard) := by
  rw [← foldl_or]
  exact (List.foldl_hom Standing.heard fun _ _ => rfl).symm

/-- If each ask was allowed where it came, there was a step to each phase from the one before. -/
theorem isChain_of_allows
    (h : ∀ before e rest, run = before ++ e :: rest →
      (before.foldl after s).Allows deadline e.ask) :
    (s.phase :: run.filterMap entered?).IsChain fun p q => p.steps q = true := by
  induction run generalizing s with
  | nil => exact .singleton _
  | cons e rest ih =>
      have hhere := h [] e rest rfl
      have hrest : ((s.after e).phase :: rest.filterMap entered?).IsChain
          fun p q => p.steps q = true :=
        ih fun before later rest' heq => h (e :: before) later rest' (heq ▸ rfl)
      rcases e with ⟨q, answer⟩
      cases q with
      | enter p => exact .cons_cons (hhere.steps p rfl) hrest
      | _ => exact hrest

theorem not_isTerminal_of_isChain {passed : List Phase} {last : Phase}
    (h : (passed ++ [last]).IsChain fun p q => p.steps q = true) :
    ∀ p ∈ passed, p.isTerminal = false := by
  induction passed with
  | nil => exact List.forall_mem_nil _
  | cons p passed ih =>
      have hnext : ∃ q, p.steps q = true := by
        cases passed with
        | nil => exact ⟨last, (List.isChain_cons_cons.1 h).1⟩
        | cons q passed => exact ⟨q, (List.isChain_cons_cons.1 h).1⟩
      have hopen : p.isTerminal = false := by
        rcases hnext with ⟨q, hq⟩
        rw [Bool.eq_false_iff]
        exact fun hterminal => p.isTerminal_iff.1 hterminal q hq
      exact List.forall_mem_cons.2 ⟨hopen, ih h.tail⟩

/-!
# Programs that keep to the standings
-/

abbrev Watched (deadline : Instant) (ends : Standing → α → Prop) (s : Standing)
    (p : Exchange α) : Prop :=
  Program.Watched after (Allows deadline) ends s p

theorem after_of_tidies {q : Ask} (hq : q.Tidies) (answer : Answer q) :
    s.after ⟨q, answer⟩ = s := by
  cases q with
  | install | record | giveBack => rfl
  | _ => exact hq.elim

theorem allows_of_tidies {q : Ask} (hq : q.Tidies) : s.Allows deadline q := by
  cases q with
  | install | record | giveBack => exact ⟨nofun, nofun, nofun, nofun⟩
  | _ => exact hq.elim

/-- Nothing changes while an attempt sees to other matters. -/
theorem watched_tidy {p : Exchange α} {f : α → Exchange β} {ends : Standing → β → Prop}
    (hp : Program.Only Ask.Tidies p) (hf : ∀ a, Watched deadline ends s (f a)) :
    Watched deadline ends s (p >>= f) := by
  induction hp with
  | done a => exact hf a
  | ask hq h ih =>
      refine .ask (allows_of_tidies hq) fun answer => ?_
      rw [after_of_tidies hq answer]
      exact ih answer

theorem watched_enter {p : Phase} {f : Unit → Exchange β} {ends : Standing → β → Prop}
    (hsteps : s.phase.steps p = true) (hheard : p = .completed → s.heard = true)
    (hf : Watched deadline ends { s with phase := p } (f ())) :
    Watched deadline ends s (enter p >>= f) := by
  refine .ask ⟨?_, ?_, nofun, nofun⟩ fun _ => hf
  · rintro _ ⟨⟩
    exact hsteps
  · rintro ⟨⟩
    exact hheard rfl

/-- A wait up to the deadline, while the matter is open. -/
theorem allows_wait {q : Ask} (hq : q.limit? = some (.upTo deadline))
    (hgoing : s.phase.isTerminal = false) : s.Allows deadline q := by
  refine ⟨?_, ?_, fun _ => hgoing, ?_⟩
  · rintro p rfl
    cases hq
  · rintro rfl
    cases hq
  · intro limit hlimit
    rw [hq] at hlimit
    cases hlimit
    rfl

theorem fits_late {phase : Phase} {heard : Bool} {text : String} (hphase : phase = .abandoned) :
    Fits { phase, late := true, heard } (.failed (.timeout text) : Outcome α) :=
  ⟨hphase, fun _ => ⟨text, rfl⟩⟩

theorem fits_in_time {phase : Phase} {heard : Bool} {o : Outcome α} (hphase : phase = o.phase) :
    Fits { phase, late := false, heard } o :=
  ⟨hphase, nofun⟩

end Standing

end Exchange

namespace Attempt

open Exchange Standing

variable {op : OpCode} {a : Attempt op} {id : UInt64}

/-!
# One function after the other
-/

theorem watched_conclude (g : Guard) (frame : Bytes) :
    Standing.Watched a.deadline Fits { phase := .awaitingResponse, late := false, heard := true }
      (a.conclude id g frame) := by
  refine watched_tidy (only_tidies_interpret g.channel frame) fun judged => ?_
  cases judged with
  | ok o =>
      have hsteps : Phase.awaitingResponse.steps o.phase = true := by
        cases o <;> rfl
      exact watched_tidy (only_release g) fun _ => watched_tidy (only_recordOutcome g.channel o)
        fun _ => watched_enter hsteps (fun _ => rfl) (.done (fits_in_time rfl))
  | error e =>
      exact watched_tidy (only_recordFailure g.channel _) fun _ => watched_tidy (only_discard g _)
        fun _ => watched_enter rfl nofun (.done (fits_in_time rfl))

/-- A frame cannot be written or read, in a phase from which one may try again. -/
theorem watched_rebuffed {p : Phase} {heard : Bool} (hsteps : p.steps .retryTopology = true)
    (g : Guard) (kind reason : String) {o : Outcome op.Reply} (ho : o.phase = .retryTopology) :
    Standing.Watched a.deadline Fits { phase := p, late := false, heard } (do
      enter .retryTopology
      recordFailure op g.channel kind
      g.discard reason
      return o) :=
  watched_enter hsteps nofun (watched_tidy (only_recordFailure g.channel _) fun _ =>
    watched_tidy (only_discard g _) fun _ => .done (fits_in_time ho.symm))

/-- The deadline has passed, in a phase that has a deadline. -/
theorem watched_abandoned {p : Phase} {heard : Bool} (hsteps : p.steps .abandoned = true)
    (channel : Channel) {f : Unit → Exchange (Outcome op.Reply)}
    (hf : Standing.Watched a.deadline Fits { phase := .abandoned, late := true, heard } (f ())) :
    Standing.Watched a.deadline Fits { phase := p, late := true, heard } (do
      enter .abandoned
      record (.abandoned op.name)
      recordFailure op channel "timeout" >>= f) :=
  watched_enter hsteps nofun (watched_tidy (only_record _) fun _ =>
    watched_tidy (only_recordFailure channel _) fun _ => hf)

theorem watched_receive (g : Guard) :
    Standing.Watched a.deadline Fits { phase := .awaitingResponse, late := false, heard := false }
      (a.receive id g) := by
  refine .ask (allows_wait rfl rfl) fun answer => ?_
  rcases answer with _ | ⟨reason | frame⟩
  · exact watched_abandoned rfl g.channel
      (.ask ⟨nofun, nofun, nofun, nofun⟩ fun _ => .done (fits_late rfl))
  · exact watched_rebuffed rfl g _ _ rfl
  · exact watched_conclude g.received frame

theorem watched_send (g : Guard) :
    Standing.Watched a.deadline Fits { phase := .channelAcquired, late := false, heard := false }
      (a.send id g) := by
  refine .ask (allows_wait rfl rfl) fun answer => ?_
  rcases answer with _ | ⟨reason | _⟩
  · exact watched_abandoned rfl g.channel
      (watched_tidy (only_discard g _) fun _ => .done (fits_late rfl))
  · exact watched_rebuffed rfl g _ _ rfl
  · exact watched_enter rfl nofun (watched_enter rfl nofun (watched_receive g.sent))

theorem watched_run : Standing.Watched a.deadline Fits Standing.initial a.run := by
  refine .ask ⟨nofun, nofun, nofun, nofun⟩ fun id => ?_
  refine .ask (allows_wait rfl rfl) fun answer => ?_
  rcases answer with _ | ⟨e | channel⟩
  · exact watched_enter rfl nofun (watched_tidy (only_record _) fun _ => .done (fits_late rfl))
  · show Standing.Watched a.deadline Fits Standing.initial (ite (e.isRetriable = true) _ _)
    split
    · exact watched_enter rfl nofun (.done (fits_in_time rfl))
    · exact watched_enter rfl nofun (.done (fits_in_time rfl))
  · exact watched_enter rfl nofun (watched_send (.fresh channel))

/-!
# The path
-/

variable {run : Exchange.Trace}

/-- Some wait was too long. -/
def Overran (run : Exchange.Trace) : Prop :=
  ∃ e ∈ run, isLate e = true

/-- The phase in which an attempt comes to its outcome. -/
structure Closes (run : Exchange.Trace) (o : Outcome op.Reply) (last : Phase) : Prop where
  terminal : last.isTerminal = true
  completed_iff : last = .completed ↔ ∃ reply, o = .completed reply
  retry_iff : last = .retryTopology ↔ o = .retryTopology ∨ ∃ e, o = .retryConnectivity e
  abandoned_iff : last = .abandoned ↔ Overran run
  failed_iff : last = .failed ↔ (∃ e, o = .failed e) ∧ ¬ Overran run
  timeout : Overran run → ∃ text, o = .failed (.timeout text)

/-- The way of an attempt through its phases. -/
structure Walks (a : Attempt op) (run : Exchange.Trace)
    (stand : Exchange.Stand (Outcome op.Reply)) : Prop where
  steps : (path run).IsChain fun p q => p.steps q = true
  heard : ∀ before after, run = before ++ ⟨.enter .completed, ()⟩ :: after →
    ∃ e ∈ before, Receives e
  limits : ∀ e ∈ run, ∀ limit ∈ e.ask.limit?, limit = .upTo a.deadline
  going : ∀ q, stand = .waiting q → ∀ p ∈ path run, p.isTerminal = false
  closed : ∀ o, stand = .done o → ∃ passed last, path run = passed ++ [last] ∧
    (∀ p ∈ passed, p.isTerminal = false) ∧ Closes run o last

theorem overran_iff : Overran run ↔ (run.foldl Standing.after .initial).late = true := by
  rw [late_foldl, Standing.initial, Bool.or_false, List.any_eq_true]
  exact Iff.rfl

theorem closes_of_fits {o : Outcome op.Reply} (h : (run.foldl Standing.after .initial).Fits o) :
    Closes run o (run.foldl Standing.after .initial).phase := by
  rcases h with ⟨hphase, htimeout⟩
  rw [hphase]
  cases hlate : (run.foldl Standing.after .initial).late with
  | true =>
      have hoverran : Overran run := overran_iff.2 hlate
      rcases htimeout hlate with ⟨text, rfl⟩
      constructor <;> simp [hoverran, Phase.isTerminal]
  | false =>
      have hoverran : ¬ Overran run := fun h => Bool.false_ne_true (hlate ▸ overran_iff.1 h)
      constructor <;> cases o <;> simp [hoverran, Phase.isTerminal, Outcome.phase]

/-- Whatever an attempt is answered, its phases are a path from the first one along the steps
between phases, and it is completed only after a frame has been read. While it waits it has come to
no terminal phase. When it is over it has come to one, the last: the phase of a reply, of a reason
to try again or of an error, or the one that says that the deadline has passed while it waited for
a channel, for its frame to be written or for the response; then the outcome is that error. -/
theorem walks_of_reaches {stand : Exchange.Stand (Outcome op.Reply)}
    (h : Exchange.Reaches a.run run stand) : a.Walks run stand := by
  have hstart : ([] : Exchange.Trace).foldl Standing.after .initial = .initial := rfl
  have hfits : ∀ before q, Program.AskedAfter run stand before q →
      (before.foldl Standing.after .initial).Allows a.deadline q :=
    fun before q hasked => (watched_run.heeds hstart).fits_of_askedAfter h hasked
  have hallows : ∀ before e rest, run = before ++ e :: rest →
      (before.foldl Standing.after .initial).Allows a.deadline e.ask :=
    fun before e rest hsplit => hfits before e.ask (Or.inl ⟨e.answer, rest, hsplit⟩)
  have hchain : (path run).IsChain fun p q => p.steps q = true := isChain_of_allows hallows
  rcases path_eq_concat .initial run with ⟨passed, hpath⟩
  change path run = _ at hpath
  have hpassed : ∀ p ∈ passed, p.isTerminal = false := not_isTerminal_of_isChain (hpath ▸ hchain)
  constructor
  case steps => exact hchain
  case heard =>
    intro before after hsplit
    have hheard := (hallows before _ after hsplit).heard rfl
    rw [heard_foldl, Standing.initial, Bool.or_false, List.any_eq_true] at hheard
    exact hheard.imp fun e he => ⟨he.1, isHeard_iff.1 he.2⟩
  case limits =>
    intro e he
    rcases List.append_of_mem he with ⟨before, rest, hsplit⟩
    exact (hallows before e rest hsplit).limit
  case going =>
    rintro q rfl
    have hwaits : q.Waits := Program.waits_of_reaches h
    have hlast := (hfits run q (Or.inr ⟨rfl, rfl⟩)).going hwaits
    rw [hpath]
    intro p hp
    rcases List.mem_append.1 hp with hp | hp
    · exact hpassed p hp
    · rw [List.mem_singleton.1 hp]
      exact hlast
  case closed =>
    rintro o rfl
    exact ⟨passed, _, hpath, hpassed, closes_of_fits (watched_run.ends_of_reaches h)⟩

/-- The ping whose response does not come in time has been sent and is abandoned. -/
theorem walks_of_reaches_abandoned :
    Exchange.Reaches lonePing.run (lonePing.abandonedRun 1 loneChannel)
        (.done (.failed (lonePing.overrun .awaiting))) ∧
      lonePing.Walks (lonePing.abandonedRun 1 loneChannel)
        (.done (.failed (lonePing.overrun .awaiting))) ∧
      path (lonePing.abandonedRun 1 loneChannel) =
        [.created, .channelAcquired, .sent, .awaitingResponse, .abandoned] := by
  have hrun := reaches_abandonedRun lonePing 1 loneChannel
  exact ⟨hrun, walks_of_reaches hrun, rfl⟩

end Attempt
end GridClient
